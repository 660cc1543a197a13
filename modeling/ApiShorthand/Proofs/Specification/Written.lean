import ApiShorthand.Proofs.Specification.Completion

/-!
# Declarations that can be written

What a text can declare, apart from its layout: names are identifiers, paths are of their grammar,
and there are tokens for types. The readers give nothing else (`Model.isWritten_of_readAll`,
`Endpoint.isWritten_of_readAll`), and a model that is completed could have been declared that way
(`Model.IsWritten.complete`).
-/

namespace ApiShorthand

open Grammar Text

/-- A field that a text can declare. -/
structure Field.IsWritten (field : Field) : Prop where
  /-- The name is an identifier. -/
  name : IsIdentifier field.name.toList
  /-- The type is one of the notation. -/
  type : ∃ token, TypeToken token field.type

/-- A model that a text can declare. -/
structure Model.IsWritten (model : Model) : Prop where
  /-- The name is an identifier. -/
  name : IsIdentifier model.name.toList
  /-- The fields can be declared. -/
  fields : ∀ field ∈ model.fields, field.IsWritten
  /-- The names of the fields are distinct. -/
  fieldNames : (model.fields.map (·.name)).Nodup

/-- An endpoint that a text can declare. -/
structure Endpoint.IsWritten (endpoint : Endpoint) : Prop where
  /-- The path is one of the grammar. -/
  path : Path.IsPathText endpoint.path.toList
  /-- The type of the request is one of the notation. -/
  request : ∀ type, endpoint.request = some type → ∃ token, TypeToken token type
  /-- The type of the response, or of its items, is a scalar or a model. -/
  response : ∀ type, endpoint.response = some type → ∃ token, ElementToken token type

/-! ### Models -/

theorem Grammar.DeclaresField.isWritten {line : NumberedLine} {field : Field}
    (h : DeclaresField line field) : field.IsWritten := by
  obtain ⟨text, name, required, type, -, hfield, rfl⟩ := h
  obtain ⟨gap, gap', token, -, -, htoken, -⟩ := hfield.eq_append
  refine ⟨?_, token, htoken⟩
  rw [String.toList_ofList]
  exact hfield.identifier

theorem Grammar.ModelsText.isWritten {lines : List NumberedLine} {models : List Model}
    (h : ModelsText lines models) : ∀ model ∈ models,
      IsIdentifier model.name.toList ∧ ∀ field ∈ model.fields, field.IsWritten := by
  induction h with
  | nil => exact nofun
  | @model header body rest name fields models hheader hbody hrest ih =>
    obtain ⟨text, -, hname⟩ := hheader
    have hfields : ∀ field ∈ fields, field.IsWritten := by
      clear hrest ih
      induction hbody with
      | nil => exact nofun
      | cons hline _ ih => exact List.forall_mem_cons.2 ⟨hline.isWritten, ih⟩
    refine List.forall_mem_cons.2 ⟨⟨?_, hfields⟩, ih⟩
    rw [String.toList_ofList]
    exact hname.identifier

theorem Model.isWritten_of_readAll {text : String} {models : List Model}
    (h : readAll text = .ok models) : ∀ model ∈ models, model.IsWritten := by
  obtain ⟨-, hnodup⟩ := haveDistinctNames_of_readAll h
  obtain ⟨lines, -, hreads⟩ := readAll_eq_ok_iff_reads.1 h
  have hgrammar := (hasRead_of_reads hreads).grammar
  rw [List.reverse_reverse] at hgrammar
  intro model hmodel
  obtain ⟨hname, hfields⟩ := hgrammar.isWritten model hmodel
  exact ⟨hname, hfields, hnodup model hmodel⟩

/-! ### Completed models -/

namespace Field

theorem isWritten_synthetic {name : String} (kind : ScalarKind) (required : Bool)
    (hname : takeName? name.toList = some (name.toList, [])) :
    (synthetic name kind required).IsWritten where
  name := (takeName?_eq_some_iff.1 hname).1
  type := ⟨kind.keyword.toList, .element (.scalar kind)⟩

/-- The default fields could be declared as well. -/
theorem isWritten_defaults : ∀ field ∈ defaults, field.IsWritten := by
  rw [defaults, List.forall_mem_cons, List.forall_mem_cons, List.forall_mem_singleton]
  exact ⟨isWritten_synthetic .integer true (by decide),
    isWritten_synthetic .datetime false (by decide),
    isWritten_synthetic .datetime false (by decide)⟩

end Field

/-- Completing a model adds and changes nothing that could not be declared. -/
theorem Model.IsWritten.complete {model : Model} (h : model.IsWritten) (options : Options) :
    (model.complete options).IsWritten where
  name := by
    rw [name_complete]
    exact h.name
  fields := by
    have hall : ∀ field ∈ model.allFields options.addDefaults, field.IsWritten := by
      rw [allFields, List.forall_mem_append]
      refine ⟨h.fields, ?_⟩
      split
      · exact fun field hfield => Field.isWritten_defaults field (List.mem_of_mem_filter hfield)
      · exact List.forall_mem_nil _
    rw [fields_complete]
    -- the mark of a field is neither in its name nor in its type
    exact List.forall_mem_map.2 fun field hfield =>
      ⟨(hall field hfield).name, (hall field hfield).type⟩
  fieldNames := nodup_fieldNames_complete options h.fieldNames

/-! ### Endpoints -/

namespace Grammar

theorem TypeToken.exists_responseItem {token : List Char} {type : TypeRef}
    (h : TypeToken token type) : ∃ item, ElementToken item type.responseItem := by
  cases h with
  | element h =>
    refine ⟨token, ?_⟩
    cases h with
    | scalar kind => exact .scalar kind
    | model hc hrest => exact .model hc hrest
  | array _ h _ => exact ⟨_, h⟩

theorem EndpointsText.isWritten {lines : List NumberedLine} {endpoints : List Endpoint}
    (h : EndpointsText lines endpoints) : ∀ endpoint ∈ endpoints, endpoint.IsWritten := by
  induction h with
  | nil => exact nofun
  | @endpoint header body rest method path request response endpoints hheader hbody hrest ih =>
    refine List.forall_mem_cons.2 ⟨⟨?_, fun type htype => ?_, fun type htype => ?_⟩, ih⟩
    · obtain ⟨text, -, word, gap, -, -, -, hpath, -⟩ := hheader
      rwa [declaredEndpoint, String.toList_ofList]
    · exact hbody.exists_typeToken (Or.inl htype)
    · obtain ⟨written, hwritten, rfl⟩ := Option.map_eq_some_iff.1 htype
      obtain ⟨token, htoken⟩ := hbody.exists_typeToken (Or.inr hwritten)
      exact htoken.exists_responseItem

end Grammar

theorem Endpoint.isWritten_of_readAll {text : String} {endpoints : List Endpoint}
    (h : readAll text = .ok endpoints) : ∀ endpoint ∈ endpoints, endpoint.IsWritten := by
  obtain ⟨lines, -, hgrammar, -⟩ := (readAll_eq_ok_iff_endpointsText text endpoints).1 h
  exact hgrammar.isWritten

end ApiShorthand
