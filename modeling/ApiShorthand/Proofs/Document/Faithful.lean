import ApiShorthand.Proofs.Document.Resolution
import ApiShorthand.Proofs.Schema.Injective

/-!
# Faithfulness of documents

The JSON form of a document determines the document, and the document of a specification that was
built determines its models and its endpoints: only the numbers of the lines are lost, and how the
endpoints of different paths were mixed (`ofSpecification_faithful`). Distinct names keep the tables
of a document from merging entries, and the form in which responses are read keeps an array that is
a response from being told in two ways.
-/

namespace ApiShorthand

theorem Table.mapValues_injective {α β : Type} {f : α → β} (hf : Function.Injective f) :
    Function.Injective (Table.mapValues f) := by
  refine List.map_injective_iff.2 fun entry entry' h => ?_
  obtain ⟨hkey, hvalue⟩ := Prod.mk.inj h
  exact Prod.ext hkey (hf hvalue)

/-! ### Serialization -/

theorem Parameter.toJson_injective : Function.Injective Parameter.toJson := by
  intro parameter parameter' h
  cases parameter with
  | path name =>
    cases parameter' with
    | path name' =>
      rw [toJson, toJson] at h
      rw [Json.string.inj (congrArg Prod.snd (List.cons.inj (Json.object.inj h)).1)]
    | body schema' => simp [toJson] at h
  | body schema =>
    cases parameter' with
    | path name' => simp [toJson] at h
    | body schema' =>
      have hschema : schema.toJson = schema'.toJson := by
        simpa [toJson] using h
      rw [Schema.toJson_injective hschema]

namespace Operation

theorem responseJson_inj {operation operation' : Operation}
    (h : operation.responseJson = operation'.responseJson) :
    operation.response = operation'.response := by
  have hentries := (List.cons.inj (Json.object.inj h)).2
  have hentry : Function.Injective fun schema : Schema => ("schema", schema.toJson) :=
    fun _ _ hschema => Schema.toJson_injective (Prod.mk.inj hschema).2
  have hschemas := congrArg List.head? (List.map_injective_iff.2 hentry hentries)
  rwa [Option.head?_toList, Option.head?_toList] at hschemas

/-- The JSON form of an operation determines the operation: without parameters it has no entry for
them. -/
theorem toJson_injective : Function.Injective toJson := by
  rintro ⟨parameters, response⟩ ⟨parameters', response'⟩ h
  obtain ⟨hparameters, hresponses⟩ := List.append_inj' (Json.object.inj h) rfl
  have hentries := Json.object.inj (congrArg Prod.snd (List.cons.inj hresponses).1)
  have hresponse := responseJson_inj (congrArg Prod.snd (List.cons.inj hentries).1)
  rw [Operation.mk.injEq]
  exact ⟨Schema.optionalEntry_inj Parameter.toJson_injective hparameters, hresponse⟩

end Operation

namespace Document

/-- **The JSON form of a document determines the document**. -/
theorem toJson_injective : Function.Injective toJson := by
  rintro ⟨paths, definitions⟩ ⟨paths', definitions'⟩ h
  obtain ⟨hpaths, hrest⟩ := List.cons.inj (Json.object.inj h)
  have hdefinitions := Json.object.inj (congrArg Prod.snd (List.cons.inj hrest).1)
  have hitem : Function.Injective fun item : PathItem =>
      Json.object (item.mapValues Operation.toJson) := fun item item' hitem =>
    Table.mapValues_injective Operation.toJson_injective (Json.object.inj hitem)
  rw [Document.mk.injEq]
  exact ⟨Table.mapValues_injective hitem (Json.object.inj (congrArg Prod.snd hpaths)),
    Table.mapValues_injective Schema.toJson_injective hdefinitions⟩

end Document

/-! ### Endpoints -/

namespace Endpoint

/-- The endpoint without the number of its line. -/
def unnumbered (endpoint : Endpoint) : Endpoint :=
  { endpoint with line := 0 }

/-- The endpoints regrouped by path: the paths in the order in which they first appear, and the
endpoints of each path in order. -/
def regrouped (endpoints : List Endpoint) : List Endpoint :=
  (pathOrder endpoints).flatMap (atPath endpoints)

/-- The type that the response was written with: an array, if it is marked. -/
def responseType? (endpoint : Endpoint) : Option TypeRef :=
  endpoint.response.map fun type => if endpoint.responseIsArray then .array type else type

theorem responseSchema?_eq (endpoint : Endpoint) :
    Operation.responseSchema? endpoint = endpoint.responseType?.map Schema.ofType := by
  rw [Operation.responseSchema?, responseType?, Option.map_map]
  refine congrArg (Option.map · endpoint.response) (funext fun type => ?_)
  cases endpoint.responseIsArray <;> rfl

/-- The type of a response determines how the endpoint keeps it. -/
theorem response_eq_of_responseType? {endpoint endpoint' : Endpoint} (hnormal : endpoint.IsNormal)
    (hnormal' : endpoint'.IsNormal) (h : endpoint.responseType? = endpoint'.responseType?) :
    endpoint.response = endpoint'.response ∧
      endpoint.responseIsArray = endpoint'.responseIsArray := by
  unfold responseType? at h
  cases hresponse : endpoint.response with
  | none =>
    rw [hresponse, Option.map_none, eq_comm, Option.map_eq_none_iff] at h
    rw [h, hnormal.responseIsArray_of_none hresponse, hnormal'.responseIsArray_of_none h]
    exact ⟨rfl, rfl⟩
  | some type =>
    rw [hresponse, Option.map_some, eq_comm, Option.map_eq_some_iff] at h
    obtain ⟨type', hresponse', htype⟩ := h
    have hne := hnormal.response_ne_array
    have hne' := hnormal'.response_ne_array
    rw [hresponse] at hne
    rw [hresponse'] at hne' ⊢
    -- with one mark only, the other type would be an array
    cases hmark : endpoint.responseIsArray <;> cases hmark' : endpoint'.responseIsArray <;>
      rw [hmark, hmark'] at htype
    · exact ⟨congrArg some htype.symm, rfl⟩
    · exact absurd (congrArg some htype.symm) (hne type')
    · exact absurd (congrArg some htype) (hne' type)
    · exact ⟨congrArg some (TypeRef.array.inj htype).symm, rfl⟩

/-- An operation under a path determines the bodies of its endpoint. -/
theorem unnumbered_eq_of_ofEndpoint {endpoint endpoint' : Endpoint} (hnormal : endpoint.IsNormal)
    (hnormal' : endpoint'.IsNormal) (hmethod : endpoint.method.key = endpoint'.method.key)
    (hpath : endpoint.path = endpoint'.path)
    (h : Operation.ofEndpoint endpoint = Operation.ofEndpoint endpoint') :
    endpoint.unnumbered = endpoint'.unnumbered := by
  obtain ⟨hparameters, hresponse⟩ := Operation.mk.inj h
  -- the parameters of the one path cancel, and what is left is the body
  rw [hpath] at hparameters
  have hbody : Function.Injective fun type : TypeRef => Parameter.body (Schema.ofType type) :=
    fun _ _ hschema => Schema.ofType_injective (Parameter.body.inj hschema)
  have hrequest := congrArg List.head?
    (List.map_injective_iff.2 hbody (List.append_cancel_left hparameters))
  rw [Option.head?_toList, Option.head?_toList] at hrequest
  have htype : endpoint.responseType? = endpoint'.responseType? := by
    refine Option.map_injective Schema.ofType_injective ?_
    rw [← responseSchema?_eq, ← responseSchema?_eq]
    exact hresponse
  obtain ⟨hresponse, hmark⟩ := response_eq_of_responseType? hnormal hnormal' htype
  rw [unnumbered, unnumbered, Method.key_injective hmethod, hpath, hrequest, hresponse, hmark]

end Endpoint

namespace Document

open Endpoint

/-- A table of paths determines the endpoints, regrouped by path. -/
theorem regrouped_eq_of_groupedPaths {endpoints endpoints' : List Endpoint}
    (hnormal : ∀ endpoint ∈ endpoints, endpoint.IsNormal)
    (hnormal' : ∀ endpoint ∈ endpoints', endpoint.IsNormal)
    (h : groupedPaths endpoints = groupedPaths endpoints') :
    (regrouped endpoints).map unnumbered = (regrouped endpoints').map unnumbered := by
  -- the keys are the paths, in the order in which they first appear
  have horder := congrArg Table.keys h
  rw [groupedPaths, groupedPaths, Table.keys_tabulate, Table.keys_tabulate] at horder
  rw [groupedPaths, groupedPaths, ← horder] at h
  rw [regrouped, regrouped, ← horder, List.map_flatMap, List.map_flatMap]
  refine List.flatMap_congr fun path hpath => ?_
  have hitem := (Prod.mk.inj (List.map_inj_left.1 h path hpath)).2
  refine map_eq_map_of_map_eq hitem fun endpoint hendpoint endpoint' hendpoint' heq => ?_
  obtain ⟨hendpoint, hpath⟩ := List.mem_filter.1 hendpoint
  obtain ⟨hendpoint', hpath'⟩ := List.mem_filter.1 hendpoint'
  obtain ⟨hmethod, hoperation⟩ := Prod.mk.inj heq
  exact unnumbered_eq_of_ofEndpoint (hnormal endpoint hendpoint) (hnormal' endpoint' hendpoint')
    hmethod ((of_decide_eq_true hpath).trans (of_decide_eq_true hpath').symm) hoperation

/-! ### Models -/

/-- Models of distinct names are defined as they stand. -/
theorem definitionsOf_eq_map {models : ModelTable}
    (hdistinct : (models.values.map (·.name)).Nodup) :
    definitionsOf models = models.values.map fun model => (model.name, Schema.ofModel model) := by
  refine Table.ofList_eq_self ?_
  rwa [List.map_map]

theorem mapValues_unnumbered_eq_map {models : ModelTable} (hkeys : models.IsKeyedByName) :
    models.mapValues Model.unnumbered =
      models.values.map fun model => (model.name, model.unnumbered) := by
  rw [Table.mapValues, Table.values, List.map_map]
  refine List.map_congr_left fun entry hentry => ?_
  rw [hkeys entry hentry]
  rfl

/-- A table of definitions determines the models, if nothing was merged in it. -/
theorem models_eq_of_definitionsOf {models models' : ModelTable} (hkeys : models.IsKeyedByName)
    (hkeys' : models'.IsKeyedByName) (hdistinct : Model.HaveDistinctNames models.values)
    (hdistinct' : Model.HaveDistinctNames models'.values)
    (h : definitionsOf models = definitionsOf models') :
    models.mapValues Model.unnumbered = models'.mapValues Model.unnumbered := by
  rw [definitionsOf_eq_map hdistinct.modelNames, definitionsOf_eq_map hdistinct'.modelNames] at h
  rw [mapValues_unnumbered_eq_map hkeys, mapValues_unnumbered_eq_map hkeys']
  refine map_eq_map_of_map_eq h fun model hmodel model' hmodel' heq => ?_
  obtain ⟨hname, hdefinition⟩ := Prod.mk.inj heq
  have hfields := Schema.ofModel_inj hdefinition (hdistinct.fieldNames model hmodel)
    (hdistinct'.fieldNames model' hmodel')
  rw [Model.unnumbered, Model.unnumbered, hname, hfields]

/-- **Emission loses nothing.** Specifications that were built have documents, and if these have
one JSON form, then the models are the same up to their lines, and so are the endpoints once they
are regrouped by path. -/
theorem ofSpecification_faithful {modelsText endpointsText modelsText' endpointsText' : String}
    {options options' : Options} {specification specification' : Specification}
    (hbuild : Specification.build modelsText endpointsText options = .ok specification)
    (hbuild' : Specification.build modelsText' endpointsText' options' = .ok specification') :
    ∃ document document', ofSpecification specification = .ok document ∧
      ofSpecification specification' = .ok document' ∧
      (document.toJson = document'.toJson →
        specification.models.mapValues Model.unnumbered =
          specification'.models.mapValues Model.unnumbered ∧
        (regrouped specification.endpoints).map unnumbered =
          (regrouped specification'.endpoints).map unnumbered) := by
  have hwell := Specification.isWellFormed_of_build hbuild
  have hwell' := Specification.isWellFormed_of_build hbuild'
  refine ⟨_, _, ofSpecification_of_isWellFormed hwell, ofSpecification_of_isWellFormed hwell',
    fun h => ?_⟩
  obtain ⟨hpaths, hdefinitions⟩ := Document.mk.inj (toJson_injective h)
  exact ⟨models_eq_of_definitionsOf hwell.isKeyedByName hwell'.isKeyedByName hwell.distinctNames
      hwell'.distinctNames hdefinitions,
    regrouped_eq_of_groupedPaths hwell.isNormal hwell'.isNormal hpaths⟩

/-- The document of the texts below. -/
def sampleDocument : Document where
  paths :=
    [("/a", [("get", ⟨[], some (.array (.reference "A") false)⟩), ("put", ⟨[], none⟩)]),
      ("/b", [("get", ⟨[], none⟩)])]
  definitions := [("A", .object [("a", .array (.reference "A") false)] ["a"] false)]

/-- A comment and the order of different paths are all that these texts differ in. -/
theorem ofSpecification_faithful_sampleDocument :
    ∃ specification specification',
      Specification.build "A:\n  a*: [A]" "GET /a\n  => [A]\nGET /b\nPUT /a" ⟨false, true⟩ =
        .ok specification ∧
      Specification.build "//\nA:\n  a*: [A]" "GET /a\n  => [A]\nPUT /a\nGET /b" ⟨false, false⟩ =
        .ok specification' ∧
      specification.models.mapValues Model.unnumbered =
        specification'.models.mapValues Model.unnumbered ∧
      (regrouped specification.endpoints).map unnumbered =
        (regrouped specification'.endpoints).map unnumbered := by
  have hbuild : Specification.build "A:\n  a*: [A]" "GET /a\n  => [A]\nGET /b\nPUT /a"
      ⟨false, true⟩ = .ok
        ⟨[("A", ⟨"A", 1, [⟨"a", 2, .array (.model "A"), true, false⟩]⟩)],
          [⟨.get, "/a", 1, none, some (.model "A"), true⟩, ⟨.get, "/b", 3, none, none, false⟩,
            ⟨.put, "/a", 4, none, none, false⟩], ⟨false, true⟩⟩ := by
    decide +kernel
  have hbuild' : Specification.build "//\nA:\n  a*: [A]" "GET /a\n  => [A]\nPUT /a\nGET /b"
      ⟨false, false⟩ = .ok
        ⟨[("A", ⟨"A", 2, [⟨"a", 3, .array (.model "A"), true, false⟩]⟩)],
          [⟨.get, "/a", 1, none, some (.model "A"), true⟩, ⟨.put, "/a", 3, none, none, false⟩,
            ⟨.get, "/b", 4, none, none, false⟩], ⟨false, false⟩⟩ := by
    decide +kernel
  obtain ⟨document, document', hdocument, hdocument', hfaithful⟩ :=
    ofSpecification_faithful hbuild hbuild'
  have hsample : Except.ok sampleDocument = .ok document := hdocument
  have hsample' : Except.ok sampleDocument = .ok document' := hdocument'
  have hsame := (Except.ok.inj hsample).symm.trans (Except.ok.inj hsample')
  exact ⟨_, _, hbuild, hbuild', hfaithful (congrArg toJson hsame)⟩

end Document

end ApiShorthand
