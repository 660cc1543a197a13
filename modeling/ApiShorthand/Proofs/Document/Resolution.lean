import ApiShorthand.Proofs.Document.Paths
import ApiShorthand.Proofs.Schema.Reference
import ApiShorthand.Proofs.Specification.Building

/-!
# References of documents

Every reference in a document is that of a field, a request or a response of its specification. If
these pass the check of references, then each one is the path of a definition of the document; and
when both texts can be read, the check is the only thing that can fail.
-/

namespace ApiShorthand

open Json Schema

/-! ### Operations -/

namespace Operation

theorem isObject_toJson (operation : Operation) : operation.toJson.isObject := rfl

theorem references_path (name : String) : (Parameter.path name).toJson.references = [] := rfl

theorem references_body (schema : Schema) :
    (Parameter.body schema).toJson.references = schema.toJson.references := by
  rw [Parameter.toJson, references_object_cons_of_ne _ _ (by decide),
    references_object_cons_of_ne _ _ (by decide), references_object_cons_of_ne _ _ (by decide),
    references_object_cons_of_ne _ _ (by decide), references_object_nil, List.append_nil]
  rfl

theorem references_responseJson (operation : Operation) :
    operation.responseJson.references =
      operation.response.toList.flatMap fun schema => schema.toJson.references := by
  rw [responseJson, references_object_cons_of_ne _ _ (by decide), references_string,
    List.nil_append]
  cases operation.response with
  | none => rfl
  | some schema =>
    show references (.object [("schema", schema.toJson)]) = _
    rw [references_object_cons_of_ne _ _ (by decide), Option.toList_some, List.flatMap_singleton,
      references_object_nil, List.append_nil]

/-- The references of an operation are those of its parameters and then those of its response. -/
theorem references_toJson (operation : Operation) :
    operation.toJson.references =
      (operation.parameters.flatMap fun parameter => parameter.toJson.references) ++
        operation.response.toList.flatMap fun schema => schema.toJson.references := by
  have hresponses :
      references (.object [("responses", .object [("200", operation.responseJson)])]) =
        operation.response.toList.flatMap fun schema => schema.toJson.references := by
    rw [references_object_cons_of_ne _ _ (by decide), references_object_cons_of_ne _ _ (by decide),
      references_object_nil, List.append_nil, List.append_nil, references_responseJson]
  rw [toJson, references_object_append, hresponses]
  congr 1
  cases operation.parameters with
  | nil => rfl
  | cons parameter rest =>
    rw [List.isEmpty_cons, if_neg Bool.false_ne_true, references_object_cons_of_ne _ _ (by decide),
      references_object_nil, List.append_nil, Json.references_array, List.flatMap_map]

/-- An endpoint shows the reference of its request and then that of its response. -/
theorem references_ofEndpoint (endpoint : Endpoint) :
    (ofEndpoint endpoint).toJson.references =
      referencesTo (endpoint.request.bind TypeRef.reference?) ++
        referencesTo (endpoint.response.bind TypeRef.reference?) := by
  -- the parameters of the path are texts
  have hpaths : ((Path.parameters endpoint.path).map Parameter.path).flatMap
      (fun parameter => parameter.toJson.references) = [] := by
    rw [List.flatMap_map, List.flatMap_eq_nil_iff]
    exact fun name _ => references_path name
  rw [references_toJson, ofEndpoint, List.flatMap_append, hpaths, List.nil_append, List.flatMap_map]
  congr 1
  · cases endpoint.request with
    | none => rfl
    | some type =>
      rw [Option.toList_some, List.flatMap_singleton, references_body, references_ofType,
        Option.bind_some]
  · rw [responseSchema?]
    cases endpoint.response with
    | none => rfl
    | some type =>
      rw [Option.map_some, Option.toList_some, List.flatMap_singleton, Option.bind_some,
        ← references_ofType]
      split
      · exact Schema.references_array (ofType type) false
      · rfl

end Operation

/-! ### Documents -/

namespace Document

/-- The references of a document are those of its operations and then those of its definitions. -/
theorem references_toJson (document : Document) :
    document.toJson.references =
      (document.paths.values.flatMap fun item =>
        item.values.flatMap fun operation => operation.toJson.references) ++
      document.definitions.values.flatMap fun schema => schema.toJson.references := by
  have hitem : ∀ item : PathItem,
      references (.object (item.mapValues Operation.toJson)) =
        item.values.flatMap fun operation => operation.toJson.references := fun item =>
    references_object_mapValues item Operation.isObject_toJson
  rw [toJson, sections, references_object_cons_of_ne _ _ (by decide),
    references_object_cons_of_ne _ _ (by decide), references_object_nil, List.append_nil, pathsJson,
    references_object_mapValues _ fun item => rfl, definitionsJson,
    references_object_mapValues _ isObject_toJson]
  simp only [hitem]

/-- A reference under a path is that of a request or a response there. -/
theorem exists_endpoint_of_mem_references {endpoints : List Endpoint} {paths : Table PathItem}
    (hpaths : pathsOf endpoints = .ok paths) {value : Json}
    (h : value ∈ paths.values.flatMap fun item =>
      item.values.flatMap fun operation => operation.toJson.references) :
    ∃ endpoint ∈ endpoints, ∃ type,
      (endpoint.request = some type ∨ endpoint.response = some type) ∧
        value ∈ referencesTo type.reference? := by
  -- each operation of the table is that of one endpoint
  obtain ⟨-, rfl⟩ := pathsOf_eq_ok_iff.1 hpaths
  obtain ⟨item, hitem, h⟩ := List.mem_flatMap.1 h
  obtain ⟨operation, hoperation, hvalue⟩ := List.mem_flatMap.1 h
  obtain ⟨⟨path, item⟩, hentry, rfl⟩ := List.mem_map.1 hitem
  obtain ⟨path, -, hentry⟩ := List.mem_map.1 hentry
  cases hentry
  obtain ⟨⟨key, operation⟩, hentry, rfl⟩ := List.mem_map.1 hoperation
  obtain ⟨endpoint, hendpoint, hentry⟩ := List.mem_map.1 hentry
  cases hentry
  refine ⟨endpoint, List.mem_of_mem_filter hendpoint, ?_⟩
  rw [Operation.references_ofEndpoint, List.mem_append] at hvalue
  rcases hvalue with hrequest | hresponse
  · cases htype : endpoint.request with
    | none =>
      rw [htype] at hrequest
      cases hrequest
    | some type =>
      rw [htype] at hrequest
      exact ⟨type, Or.inl rfl, hrequest⟩
  · cases htype : endpoint.response with
    | none =>
      rw [htype] at hresponse
      cases hresponse
    | some type =>
      rw [htype] at hresponse
      exact ⟨type, Or.inr rfl, hresponse⟩

/-- A model is defined under its own name, and nothing else is defined. -/
theorem mem_keys_definitionsOf {models : ModelTable} {name : String} :
    name ∈ (definitionsOf models).keys ↔ ∃ model ∈ models.values, model.name = name := by
  rw [definitionsOf, Table.mem_keys_ofList, List.map_map, List.mem_map]
  rfl

theorem mem_keys_definitionsOf_of_isKeyedByName {models : ModelTable}
    (h : models.IsKeyedByName) {name : String} :
    name ∈ (definitionsOf models).keys ↔ name ∈ models.keys := by
  rw [mem_keys_definitionsOf, Table.keys, Table.values, List.mem_map]
  constructor
  · rintro ⟨model, hmodel, rfl⟩
    obtain ⟨entry, hentry, rfl⟩ := List.mem_map.1 hmodel
    exact ⟨entry, hentry, h entry hentry⟩
  · rintro ⟨entry, hentry, rfl⟩
    exact ⟨entry.2, List.mem_map_of_mem hentry, (h entry hentry).symm⟩

/-- Every reference in a document is the path of one of its definitions. -/
def HasNoDanglingReference (document : Document) : Prop :=
  ∀ value ∈ document.toJson.references, ∃ name ∈ document.definitions.keys,
    value = .string ("#/definitions/" ++ name)

theorem ofSpecification_eq_ok_iff {specification : Specification} {document : Document} :
    ofSpecification specification = .ok document ↔ ∃ paths,
      pathsOf specification.endpoints = .ok paths ∧
        document = { paths, definitions := definitionsOf specification.models } := by
  rw [ofSpecification, Except.bind_eq_ok_iff]
  refine exists_congr fun paths => and_congr_right fun _ => ?_
  constructor
  · intro h
    cases h
    rfl
  · rintro rfl
    rfl

/-- The check of references is enough for the document, whatever its types are. -/
theorem hasNoDanglingReference_of_checkReferences {specification : Specification}
    {document : Document} (hkeys : specification.models.IsKeyedByName)
    (hcheck : checkReferences specification.models specification.endpoints = .ok ())
    (hok : ofSpecification specification = .ok document) : document.HasNoDanglingReference := by
  obtain ⟨paths, hpaths, rfl⟩ := ofSpecification_eq_ok_iff.1 hok
  obtain ⟨hmodels, hendpoints⟩ := checkReferences_eq_ok_iff.1 hcheck
  -- a type that passed the check refers to a definition
  have hdefined : ∀ type : TypeRef, type.IsDeclared specification.models →
      ∀ value ∈ referencesTo type.reference?,
        ∃ name ∈ (definitionsOf specification.models).keys,
          value = .string ("#/definitions/" ++ name) := by
    intro type htype value hvalue
    obtain ⟨name, hname, rfl⟩ := List.mem_map.1 hvalue
    have hdeclared := htype name (TypeRef.refersTo_iff.2 (Option.mem_toList.1 hname))
    exact ⟨name, (mem_keys_definitionsOf_of_isKeyedByName hkeys).2 hdeclared, rfl⟩
  intro value hvalue
  rw [references_toJson, List.mem_append] at hvalue
  rcases hvalue with hpath | hdefinition
  · obtain ⟨endpoint, hendpoint, type, htype, hvalue⟩ :=
      exists_endpoint_of_mem_references hpaths hpath
    obtain ⟨hrequest, hresponse⟩ := hendpoints endpoint hendpoint
    exact hdefined type (htype.elim (hrequest type) (hresponse type)) value hvalue
  · obtain ⟨schema, hschema, hvalue⟩ := List.mem_flatMap.1 hdefinition
    obtain ⟨entry, hentry, rfl⟩ := List.mem_map.1 hschema
    obtain ⟨model, hmodel, rfl⟩ := List.mem_map.1 (Table.mem_of_mem_ofList hentry)
    obtain ⟨field, hfield, hvalue⟩ := exists_field_of_mem_references hvalue
    exact hdefined field.type (hmodels model hmodel field hfield) value hvalue

/-- A well-formed specification has a document. -/
theorem ofSpecification_of_isWellFormed {specification : Specification}
    (h : specification.IsWellFormed) :
    ofSpecification specification = .ok
      { paths := groupedPaths specification.endpoints,
        definitions := definitionsOf specification.models } :=
  ofSpecification_eq_ok_iff.2 ⟨_, pathsOf_eq_ok_iff.2 ⟨h.distinctOperations, rfl⟩, rfl⟩

end Document

/-! ### Compilation -/

open Document

theorem compile_of_build {modelsText endpointsText : String} {options : Options}
    {specification : Specification}
    (h : Specification.build modelsText endpointsText options = .ok specification) :
    compile modelsText endpointsText options = ofSpecification specification := by
  rw [compile, h]
  rfl

theorem hasNoDanglingReference_of_compile {modelsText endpointsText : String} {options : Options}
    {document : Document} (h : compile modelsText endpointsText options = .ok document) :
    document.HasNoDanglingReference := by
  obtain ⟨specification, hbuild, hok⟩ := Except.bind_eq_ok_iff.1 h
  have hwell := Specification.isWellFormed_of_build hbuild
  exact hasNoDanglingReference_of_checkReferences hwell.isKeyedByName hwell.resolved hok

/-- Once both texts are read, only the check of references can fail. -/
theorem compile_eq_error_iff_checkReferences {modelsText endpointsText : String}
    {models : ModelTable} {endpoints : List Endpoint} (options : Options)
    (hmodels : ModelTable.ofString modelsText = .ok models)
    (hendpoints : Endpoint.readAll endpointsText = .ok endpoints) {fault : Fault} :
    compile modelsText endpointsText options = .error fault ↔
      checkReferences models endpoints = .error fault := by
  have hbuild := Specification.build_of_readable options hmodels hendpoints
  rw [compile]
  cases hcheck : checkReferences models endpoints with
  | error first =>
    rw [hcheck] at hbuild
    rw [hbuild]
    constructor
    · intro h
      cases h
      rfl
    · intro h
      cases h
      rfl
  | ok _ =>
    rw [hcheck] at hbuild
    -- the reader has refused repeated operations already
    rw [← compile, compile_of_build hbuild,
      ofSpecification_of_isWellFormed (Specification.isWellFormed_of_build hbuild)]
    exact iff_of_false nofun nofun

/-- **References are resolved.** A document has no dangling reference if its specification passes
the check, and so has none if it was compiled; the references of a type are the one that the check
looks at, also where a field of the type is widened by `null`; and texts that can be read fail to
compile exactly if a name is mentioned that no model has, with the first such name in the fault. -/
theorem references_resolve :
    (∀ specification document, specification.models.IsKeyedByName →
      checkReferences specification.models specification.endpoints = .ok () →
      ofSpecification specification = .ok document → document.HasNoDanglingReference) ∧
    (∀ type : TypeRef, (ofType type).toJson.references =
      type.reference?.toList.map fun name => .string ("#/definitions/" ++ name)) ∧
    (∀ field : Field, (ofField field).toJson.references =
      field.type.reference?.toList.map fun name => .string ("#/definitions/" ++ name)) ∧
    (∀ modelsText endpointsText options document,
      compile modelsText endpointsText options = .ok document →
        document.HasNoDanglingReference) ∧
    ∀ modelsText endpointsText options models endpoints,
      ModelTable.ofString modelsText = .ok models → Endpoint.readAll endpointsText = .ok endpoints →
        ((∃ fault, compile modelsText endpointsText options = .error fault) ↔
          ∃ name, Mentions models endpoints name ∧ name ∉ models.keys) ∧
        ∀ fault, compile modelsText endpointsText options = .error fault ↔
          ∃ name, FirstUndeclared models endpoints name ∧ fault = .unresolvedReference name := by
  refine ⟨fun _ _ => hasNoDanglingReference_of_checkReferences, references_ofType,
    references_ofField, fun _ _ _ _ => hasNoDanglingReference_of_compile, ?_⟩
  intro modelsText endpointsText options models endpoints hmodels hendpoints
  have hfault : ∀ fault, compile modelsText endpointsText options = .error fault ↔
      ∃ name, FirstUndeclared models endpoints name ∧ fault = .unresolvedReference name := by
    intro fault
    rw [compile_eq_error_iff_checkReferences options hmodels hendpoints]
    exact checkReferences_eq_error_iff
  refine ⟨?_, hfault⟩
  rw [← exists_firstUndeclared_iff]
  constructor
  · rintro ⟨fault, h⟩
    obtain ⟨name, hname, -⟩ := (hfault fault).1 h
    exact ⟨name, hname⟩
  · rintro ⟨name, hname⟩
    exact ⟨.unresolvedReference name, (hfault _).2 ⟨name, hname, rfl⟩⟩

/-- Two models that refer to each other, one of them through an array of arrays. -/
def mutualSpecification : Specification where
  models :=
    [("A", ⟨"A", 1, [⟨"b", 2, .array (.array (.model "B")), false, true⟩]⟩),
      ("B", ⟨"B", 3, [⟨"a", 4, .model "A", true, true⟩]⟩)]
  endpoints := [⟨.post, "/a", 1, some (.array (.model "A")), some (.model "B"), true⟩]
  options := {}

/-- Cycles are no trouble, and of two missing models the one of the field is reported. -/
theorem references_resolve_mutualSpecification :
    (∃ document, ofSpecification mutualSpecification = .ok document ∧
        document.HasNoDanglingReference) ∧
      (∃ document, compile "A:\n  a: [A]\n" "GET /\n  => A\n" ⟨false, true⟩ = .ok document ∧
        document.HasNoDanglingReference) ∧
      compile "A:\n  b: [Missing]\n" "GET /a\n  => Ghost\n" {} =
        .error (.unresolvedReference "Missing") := by
  refine ⟨⟨_, rfl, references_resolve.1 mutualSpecification _ ?_ ?_ rfl⟩, ?_, ?_⟩
  · unfold ModelTable.IsKeyedByName
    decide
  · decide
  · have hbuild : Specification.build "A:\n  a: [A]\n" "GET /\n  => A\n" ⟨false, true⟩ =
        .ok ⟨[("A", ⟨"A", 1, [⟨"a", 2, .array (.model "A"), false, true⟩]⟩)],
          [⟨.get, "/", 1, none, some (.model "A"), false⟩], ⟨false, true⟩⟩ := by
      decide +kernel
    have hok := (compile_of_build hbuild).trans rfl
    exact ⟨_, hok, references_resolve.2.2.2.1 _ _ _ _ hok⟩
  · have hfirst : FirstUndeclared
        [("A", ⟨"A", 1, [⟨"b", 2, .array (.model "Missing"), false, false⟩]⟩)]
        [⟨.get, "/a", 1, none, some (.model "Ghost"), false⟩] "Missing" := by
      have hmodels : [Model.mk "A" 1 [⟨"b", 2, .array (.model "Missing"), false, false⟩]] =
          [] ++ ⟨"A", 1, [⟨"b", 2, .array (.model "Missing"), false, false⟩]⟩ :: [] := rfl
      have hfields : [Field.mk "b" 2 (.array (.model "Missing")) false false] =
          [] ++ ⟨"b", 2, .array (.model "Missing"), false, false⟩ :: [] := rfl
      exact .field hmodels nofun hfields nofun (.array .model) (by decide)
    refine ((references_resolve.2.2.2.2 _ _ _ _ _ ?_ ?_).2 _).2 ⟨"Missing", hfirst, rfl⟩
    · decide +kernel
    · decide +kernel

end ApiShorthand
