import ApiShorthand.Proofs.Grammar.Endpoints
import ApiShorthand.Proofs.Grammar.Models
import ApiShorthand.Proofs.Specification.Resolver

/-!
# Correctness of `Specification.build`

What `Model.complete` keeps of a model: its name, that the names of its fields are distinct, and
that it refers to declared models only. From this and the readers of both texts, what is known of a
specification that was built (`Specification.IsWellFormed`).
-/

namespace ApiShorthand

namespace Model

/-! ### Completed models -/

/-- What holds of a model and survives a default field of a new name holds with all of them. -/
theorem withDefaults_induction {motive : Model → Prop} (model : Model) (hmodel : motive model)
    (hstep : ∀ before : Model, ∀ field ∈ Field.defaults,
      field.name ∉ before.fields.map (·.name) → motive before →
        motive { before with fields := before.fields ++ [field] }) :
    motive model.withDefaults := by
  -- a field of a name that is taken is not added
  refine List.foldlRecOn Field.defaults addMissing hmodel fun before hbefore field hfield => ?_
  unfold addMissing
  split
  · exact hbefore
  · rename_i hnew
    exact hstep before field hfield (isSome_field?_iff.not.1 hnew) hbefore

@[simp] theorem name_withDefaults (model : Model) : model.withDefaults.name = model.name :=
  withDefaults_induction (motive := fun other => other.name = model.name) model rfl
    fun _ _ _ _ h => h

@[simp] theorem name_complete (options : Options) (model : Model) :
    (model.complete options).name = model.name := by
  rw [complete, markNullable]
  split
  · exact name_withDefaults model
  · rfl

/-- The mark of nullable fields touches no name. -/
theorem fieldNames_markNullable (addNulls : Bool) (model : Model) :
    (model.markNullable addNulls).fields.map (·.name) = model.fields.map (·.name) := by
  rw [markNullable, List.map_map]
  rfl

theorem nodup_fieldNames_complete (options : Options) {model : Model}
    (h : (model.fields.map (·.name)).Nodup) :
    ((model.complete options).fields.map (·.name)).Nodup := by
  rw [complete, fieldNames_markNullable]
  split
  · refine withDefaults_induction (motive := fun other => (other.fields.map (·.name)).Nodup) model h
      fun before field _ hnew hbefore => ?_
    rw [List.map_append, List.map_singleton, ← List.concat_eq_append, List.nodup_concat]
    exact ⟨hnew, hbefore⟩
  · exact h

theorem isDeclared_scalar (models : ModelTable) (kind : ScalarKind) :
    (TypeRef.scalar kind).IsDeclared models := nofun

/-- The default fields are scalars, and the mark of nullable fields touches no type. -/
theorem isResolved_complete (options : Options) {models : ModelTable} {model : Model}
    (h : model.IsResolved models) : (model.complete options).IsResolved models := by
  have hmark : ∀ model : Model, model.IsResolved models →
      (model.markNullable options.addNulls).IsResolved models := by
    intro model h field hfield
    obtain ⟨before, hbefore, rfl⟩ := List.mem_map.1 hfield
    exact h before hbefore
  have hscalar : ∀ field ∈ Field.defaults, field.type.IsDeclared models := by
    rw [Field.defaults, List.forall_mem_cons, List.forall_mem_cons, List.forall_mem_singleton]
    exact ⟨isDeclared_scalar models _, isDeclared_scalar models _, isDeclared_scalar models _⟩
  rw [complete]
  refine hmark _ ?_
  -- with the default fields, or without them
  split
  · refine withDefaults_induction (motive := (·.IsResolved models)) model h
      fun before field hfield _ hbefore other hother => ?_
    rcases List.mem_append.1 hother with hold | hnew
    · exact hbefore other hold
    · rw [List.mem_singleton.1 hnew]
      exact hscalar field hfield
  · exact h

end Model

/-- Every model stands under its own name. -/
def ModelTable.IsKeyedByName (models : ModelTable) : Prop :=
  ∀ entry ∈ models, entry.1 = entry.2.name

namespace ModelTable

theorem ofString_eq_ok_iff {text : String} {table : ModelTable} :
    ofString text = .ok table ↔
      ∃ models, Model.readAll text = .ok models ∧ table = ofModels models := by
  rw [ofString, Except.bind_eq_ok_iff]
  refine exists_congr fun models => and_congr_right fun _ => ?_
  constructor
  · intro h
    cases h
    rfl
  · rintro rfl
    rfl

theorem isKeyedByName_ofModels (models : List Model) : (ofModels models).IsKeyedByName := by
  intro entry hentry
  obtain ⟨model, -, rfl⟩ := List.mem_map.1 hentry
  rfl

theorem IsKeyedByName.mapValues {models : ModelTable} (h : models.IsKeyedByName)
    {f : Model → Model} (hf : ∀ model, (f model).name = model.name) :
    IsKeyedByName (Table.mapValues f models) := by
  intro entry hentry
  obtain ⟨before, hbefore, rfl⟩ := List.mem_map.1 hentry
  exact (h before hbefore).trans (hf before.2).symm

theorem values_ofModels (models : List Model) : (ofModels models).values = models := by
  rw [ofModels, Table.values, List.map_map]
  exact List.map_id models

theorem values_mapValues (f : Model → Model) (models : ModelTable) :
    (models.mapValues f).values = models.values.map f := by
  rw [Table.mapValues, Table.values, Table.values, List.map_map, List.map_map]
  rfl

end ModelTable

/-! ### Endpoints that were read -/

open Grammar

/-- The response of an endpoint as the reader keeps it: an array is told by the mark alone, and
there is no mark without a response. -/
structure Endpoint.IsNormal (endpoint : Endpoint) : Prop where
  /-- The type of the response is no array. -/
  response_ne_array : ∀ item, endpoint.response ≠ some (.array item)
  /-- An endpoint without a response has no mark. -/
  responseIsArray_of_none : endpoint.response = none → endpoint.responseIsArray = false

namespace Grammar

theorem ElementToken.ne_array {token : List Char} {type : TypeRef} (h : ElementToken token type)
    (item : TypeRef) : type ≠ .array item := by
  cases h <;> exact nofun

/-- The notation has no arrays of arrays. -/
theorem TypeToken.responseItem_ne_array {token : List Char} {type : TypeRef}
    (h : TypeToken token type) (item : TypeRef) : type.responseItem ≠ .array item := by
  cases h with
  | @element token type h =>
    have htype : type.responseItem = type := by
      cases h <;> rfl
    rw [htype]
    exact h.ne_array item
  | array _ h _ => exact h.ne_array item

theorem BodyLines.exists_typeToken {lines : List NumberedLine} {request response : Option TypeRef}
    (h : BodyLines lines request response) {type : TypeRef}
    (htype : request = some type ∨ response = some type) : ∃ token, TypeToken token type := by
  induction h with
  | nil => rcases htype with hrequest | hresponse <;> contradiction
  | request _ hline ih =>
    rcases htype with hrequest | hresponse
    · cases hrequest
      obtain ⟨text, -, htoken⟩ := hline
      exact ⟨text, htoken⟩
    · exact ih (Or.inr hresponse)
  | response _ hline ih =>
    rcases htype with hrequest | hresponse
    · exact ih (Or.inl hrequest)
    · cases hresponse
      obtain ⟨text, -, gap, token, -, htoken, -⟩ := hline
      exact ⟨token, htoken⟩

theorem EndpointsText.isNormal {lines : List NumberedLine} {endpoints : List Endpoint}
    (h : EndpointsText lines endpoints) : ∀ endpoint ∈ endpoints, endpoint.IsNormal := by
  induction h with
  | nil => exact nofun
  | @endpoint header body rest method path request response endpoints hheader hbody hrest ih =>
    rw [List.forall_mem_cons]
    refine ⟨⟨fun item hitem => ?_, fun hnone => ?_⟩, ih⟩
    · obtain ⟨type, htype, hresponse⟩ := Option.map_eq_some_iff.1 hitem
      obtain ⟨token, htoken⟩ := hbody.exists_typeToken (Or.inr htype)
      exact htoken.responseItem_ne_array item hresponse
    · show response.any TypeRef.isArray = false
      rw [Option.map_eq_none_iff.1 hnone]
      rfl

end Grammar

theorem Endpoint.nodup_operation_of_readAll {text : String} {endpoints : List Endpoint}
    (h : readAll text = .ok endpoints) : (endpoints.map operation).Nodup := by
  obtain ⟨lines, -, hreads⟩ := readAll_eq_ok_iff_reads.1 h
  have hdistinct := (hasRead_of_reads hreads).distinct
  rwa [List.map_reverse, List.nodup_reverse] at hdistinct

theorem Endpoint.isNormal_of_readAll {text : String} {endpoints : List Endpoint}
    (h : readAll text = .ok endpoints) : ∀ endpoint ∈ endpoints, endpoint.IsNormal := by
  obtain ⟨lines, -, hreads⟩ := readAll_eq_ok_iff_reads.1 h
  have hgrammar := (hasRead_of_reads hreads).grammar
  rw [List.reverse_reverse] at hgrammar
  exact hgrammar.isNormal

/-! ### Specifications that were built -/

namespace Specification

/-- What is known of a specification that was built from texts. -/
structure IsWellFormed (specification : Specification) : Prop where
  /-- Every model stands under its own name. -/
  isKeyedByName : specification.models.IsKeyedByName
  /-- Models have distinct names, and so have the fields of each model. -/
  distinctNames : Model.HaveDistinctNames specification.models.values
  /-- No two endpoints have one method and path. -/
  distinctOperations : (specification.endpoints.map Endpoint.operation).Nodup
  /-- The responses are as the reader keeps them. -/
  isNormal : ∀ endpoint ∈ specification.endpoints, endpoint.IsNormal
  /-- Every reference is declared. -/
  resolved : checkReferences specification.models specification.endpoints = .ok ()

/-- Texts that can be read give a specification exactly if their references are declared. -/
theorem build_of_readable {modelsText endpointsText : String} {models : ModelTable}
    {endpoints : List Endpoint} (options : Options)
    (hmodels : ModelTable.ofString modelsText = .ok models)
    (hendpoints : Endpoint.readAll endpointsText = .ok endpoints) :
    build modelsText endpointsText options = (checkReferences models endpoints).map fun _ =>
      { models := models.mapValues (Model.complete options), endpoints, options } := by
  unfold build
  rw [hmodels, hendpoints]
  cases hcheck : checkReferences models endpoints with
  | ok _ =>
    show (checkReferences models endpoints >>= _) = _
    rw [hcheck]
    rfl
  | error fault =>
    show (checkReferences models endpoints >>= _) = _
    rw [hcheck]
    rfl

theorem build_eq_ok_iff {modelsText endpointsText : String} {options : Options}
    {specification : Specification} :
    build modelsText endpointsText options = .ok specification ↔
      ∃ models endpoints, ModelTable.ofString modelsText = .ok models ∧
        Endpoint.readAll endpointsText = .ok endpoints ∧
        checkReferences models endpoints = .ok () ∧
        specification =
          { models := models.mapValues (Model.complete options), endpoints, options } := by
  constructor
  · intro h
    obtain ⟨models, hmodels, hrest⟩ := Except.bind_eq_ok_iff.1 h
    obtain ⟨endpoints, hendpoints, -⟩ := Except.bind_eq_ok_iff.1 hrest
    rw [build_of_readable options hmodels hendpoints, Except.map_eq_ok_iff] at h
    obtain ⟨_, hcheck, hspecification⟩ := h
    exact ⟨models, endpoints, hmodels, hendpoints, hcheck, hspecification⟩
  · rintro ⟨models, endpoints, hmodels, hendpoints, hcheck, rfl⟩
    rw [build_of_readable options hmodels hendpoints, hcheck]
    rfl

/-- Completing models changes no answer of the check. -/
theorem checkReferences_complete (options : Options) {models : ModelTable}
    {endpoints : List Endpoint} (h : checkReferences models endpoints = .ok ()) :
    checkReferences (models.mapValues (Model.complete options)) endpoints = .ok () := by
  have hdeclared : ∀ type : TypeRef, type.IsDeclared models →
      type.IsDeclared (models.mapValues (Model.complete options)) := by
    intro type htype name hname
    rw [Table.keys_mapValues]
    exact htype name hname
  rw [checkReferences_eq_ok_iff] at h ⊢
  refine ⟨fun model hmodel field hfield => ?_, fun endpoint hendpoint => ?_⟩
  · rw [ModelTable.values_mapValues] at hmodel
    obtain ⟨before, hbefore, rfl⟩ := List.mem_map.1 hmodel
    exact hdeclared field.type (Model.isResolved_complete options (h.1 before hbefore) field hfield)
  · obtain ⟨hrequest, hresponse⟩ := h.2 endpoint hendpoint
    exact ⟨fun type htype => hdeclared type (hrequest type htype),
      fun type htype => hdeclared type (hresponse type htype)⟩

/-- **Every specification that is built is well formed**. -/
theorem isWellFormed_of_build {modelsText endpointsText : String} {options : Options}
    {specification : Specification}
    (h : build modelsText endpointsText options = .ok specification) :
    specification.IsWellFormed := by
  obtain ⟨table, endpoints, hmodels, hendpoints, hcheck, rfl⟩ := build_eq_ok_iff.1 h
  obtain ⟨models, hread, rfl⟩ := ModelTable.ofString_eq_ok_iff.1 hmodels
  obtain ⟨hnames, hfields⟩ := Model.haveDistinctNames_of_readAll hread
  refine ⟨?_, ?_, Endpoint.nodup_operation_of_readAll hendpoints,
    Endpoint.isNormal_of_readAll hendpoints, checkReferences_complete options hcheck⟩
  -- completing keeps the names of the models and of their fields apart
  · exact (ModelTable.isKeyedByName_ofModels models).mapValues (Model.name_complete options)
  · rw [ModelTable.values_mapValues, ModelTable.values_ofModels]
    refine ⟨?_, fun model hmodel => ?_⟩
    · rw [List.map_map]
      simpa only [Function.comp_def, Model.name_complete] using hnames
    · obtain ⟨before, hbefore, rfl⟩ := List.mem_map.1 hmodel
      exact Model.nodup_fieldNames_complete options (hfields before hbefore)

end Specification

end ApiShorthand
