import ApiShorthand.Proofs.Document.Validity

/-!
# The law of nullability

`null` is a value of a property exactly if the option is set and the property is not required; it is
a value of no request body, no response and no item of an array, wherever the array stands
(`obeysNullability_of_compile`).

All these schemas are schemas of types, or properties widened by `null`. The schema of a type
refuses `null`: a scalar and an array by their `type`, and a reference because every definition of a
compiled document is an object schema (`not_accepts_null_ofType`).
-/

namespace ApiShorthand

namespace Schema

/-- A schema contains itself, and what its items, its properties and its alternatives contain. -/
inductive HasPart : Schema → Schema → Prop where
  | self {schema : Schema} : HasPart schema schema
  | items {items part : Schema} {nullable : Bool} (h : HasPart items part) :
      HasPart (array items nullable) part
  | property {properties : List (String × Schema)} {required : List String} {nullable : Bool}
      {property : String × Schema} {part : Schema} (hmem : property ∈ properties)
      (h : HasPart property.2 part) : HasPart (object properties required nullable) part
  | alternative {alternatives : List Schema} {schema part : Schema} (hmem : schema ∈ alternatives)
      (h : HasPart schema part) : HasPart (anyOf alternatives) part

variable {items : Schema} {nullable : Bool}

theorem exists_type_of_hasPart_ofType {type : TypeRef}
    (h : HasPart (ofType type) (array items nullable)) : ∃ item, items = ofType item := by
  induction type with
  | scalar kind => cases h
  | model name => cases h
  | array item ih =>
    rw [ofType_array] at h
    cases h with
    | self => exact ⟨item, rfl⟩
    | items h => exact ih h

theorem exists_type_of_hasPart_orNull {type : TypeRef}
    (h : HasPart (ofType type).orNull (array items nullable)) : ∃ item, items = ofType item := by
  cases type with
  | scalar kind => cases h
  | model name =>
    cases h with
    | alternative hmem h =>
      simp only [List.mem_cons, List.not_mem_nil, or_false] at hmem
      rcases hmem with rfl | rfl <;> cases h
  | array item =>
    rw [ofType_array, orNull] at h
    cases h with
    | self => exact ⟨item, rfl⟩
    | items h => exact exists_type_of_hasPart_ofType h

theorem exists_type_of_hasPart_ofFields {addNulls : Bool} {fields : List Field}
    (h : HasPart (ofFields addNulls fields) (array items nullable)) :
    ∃ item, items = ofType item := by
  cases h with
  | property hmem h =>
    rw [plainProperties, List.map_map] at hmem
    obtain ⟨field, -, rfl⟩ := List.mem_map.1 hmem
    simp only [Function.comp_apply, widenOptional] at h
    split_ifs at h
    · exact exists_type_of_hasPart_orNull h
    · exact exists_type_of_hasPart_ofType h

end Schema

/-- The schema of a parameter in the body. -/
def Parameter.body? : Parameter → Option Schema
  | path _ => none
  | body schema => some schema

/-- The schemas of the request body and of the response. -/
def Operation.bodySchemas (operation : Operation) : List Schema :=
  operation.parameters.filterMap Parameter.body? ++ operation.response.toList

/-- The schemas of all request bodies and responses. -/
def Document.bodySchemas (document : Document) : List Schema :=
  document.paths.values.flatMap fun item => item.values.flatMap Operation.bodySchemas

theorem Operation.exists_type_of_mem_bodySchemas {endpoint : Endpoint} {schema : Schema}
    (h : schema ∈ (ofEndpoint endpoint).bodySchemas) : ∃ type, schema = .ofType type := by
  rw [bodySchemas, List.mem_append] at h
  rcases h with hrequest | hresponse
  · obtain ⟨parameter, hparameter, hschema⟩ := List.mem_filterMap.1 hrequest
    rcases List.mem_append.1 hparameter with hpath | hbody
    · obtain ⟨name, -, rfl⟩ := List.mem_map.1 hpath
      cases hschema
    · obtain ⟨type, -, rfl⟩ := List.mem_map.1 hbody
      exact ⟨type, (Option.some.inj hschema).symm⟩
  · -- a response that is an array is one of an array type
    have hsome := Option.mem_toList.1 hresponse
    rw [ofEndpoint, Endpoint.responseSchema?_eq, Option.map_eq_some_iff] at hsome
    obtain ⟨type, -, rfl⟩ := hsome
    exact ⟨type, rfl⟩

namespace Document

theorem exists_type_of_mem_bodySchemas {options : Options} {models : List Model}
    {endpoints : List Endpoint} {schema : Schema}
    (h : schema ∈ (ofDeclarations options models endpoints).bodySchemas) :
    ∃ type, schema = .ofType type := by
  obtain ⟨item, hitem, h⟩ := List.mem_flatMap.1 h
  obtain ⟨operation, hoperation, hschema⟩ := List.mem_flatMap.1 h
  obtain ⟨entry, hentry, rfl⟩ := List.mem_map.1 hitem
  obtain ⟨path, -, rfl⟩ := List.mem_map.1 hentry
  obtain ⟨keyed, hkeyed, rfl⟩ := List.mem_map.1 hoperation
  obtain ⟨endpoint, -, rfl⟩ := List.mem_map.1 hkeyed
  exact Operation.exists_type_of_mem_bodySchemas hschema

/-- A schema stands anywhere in a document: in a definition, a request body or a response. -/
def Contains (document : Document) (schema : Schema) : Prop :=
  ∃ whole ∈ document.definitions.values ++ document.bodySchemas, whole.HasPart schema

/-- Where `null` is a value in a document. -/
structure ObeysNullability (formats : String → String → Prop) (addNulls : Bool)
    (document : Document) : Prop where
  /-- It is one of the optional properties, if nulls are added. -/
  properties : ∀ definition ∈ document.definitions.values, ∃ properties required,
    definition = .object properties required false ∧ ∀ property ∈ properties,
      document.Accepts formats property.2 .null ↔ addNulls = true ∧ property.1 ∉ required
  /-- It is none of a request body or a response. -/
  bodies : ∀ schema ∈ document.bodySchemas, ¬ document.Accepts formats schema .null
  /-- It is none of an item of an array. -/
  items : ∀ items nullable, document.Contains (.array items nullable) →
    ¬ document.Accepts formats items .null

variable {formats : String → String → Prop} {options : Options} {models : List Model}
  {endpoints : List Endpoint}

theorem not_isValid_null (hdistinct : Model.HaveDistinctNames models) (name : String) :
    ¬ (ofDeclarations options models endpoints).IsValid formats name .null := by
  intro h
  obtain ⟨model, hmodel, rfl⟩ := exists_model_of_isValid hdistinct h
  obtain ⟨entries, heq, -⟩ := Schema.accepts_ofFields.1 ((isValid_model_iff hdistinct hmodel).1 h)
  cases heq

theorem not_accepts_null_ofType (hdistinct : Model.HaveDistinctNames models) (type : TypeRef) :
    ¬ (ofDeclarations options models endpoints).Accepts formats (.ofType type) .null := by
  intro h
  cases type with
  | scalar kind =>
    rcases (Schema.accepts_scalar.1 h).1 with hname | ⟨hnullable, -⟩
    · exact Schema.schemaType_ne_null kind (List.mem_singleton.1 hname)
    · cases hnullable
  | model name => exact not_isValid_null hdistinct name (Schema.accepts_reference.1 h)
  | array item =>
    rcases Schema.accepts_array.1 h with ⟨values, heq, -⟩ | ⟨hnullable, -⟩
    · cases heq
    · cases hnullable

theorem accepts_null_widenOptional (hdistinct : Model.HaveDistinctNames models) {addNulls : Bool}
    {required : List String} {name : String} {type : TypeRef} :
    (ofDeclarations options models endpoints).Accepts formats
        (Schema.widenOptional addNulls required (name, .ofType type)).2 .null ↔
      addNulls = true ∧ name ∉ required := by
  rw [Accepts, Schema.accepts_widenOptional]
  simp only [and_true]
  exact or_iff_right (not_accepts_null_ofType hdistinct type)

end Document

/-- **The law of nullability** holds in every document that is compiled. -/
theorem obeysNullability_of_compile {modelsText endpointsText : String} {options : Options}
    {document : Document} (h : compile modelsText endpointsText options = .ok document)
    (formats : String → String → Prop) : document.ObeysNullability formats options.addNulls := by
  obtain ⟨models, endpoints, hmodels, -, -, rfl⟩ := compile_eq_ok_iff.1 h
  have hdistinct := Model.haveDistinctNames_of_readAll hmodels
  have hdefinition : ∀ definition ∈
      (Document.ofDeclarations options models endpoints).definitions.values,
      ∃ fields, definition = .ofFields options.addNulls fields := by
    intro definition hdefinition
    obtain ⟨entry, hentry, rfl⟩ := List.mem_map.1 hdefinition
    obtain ⟨model, hmodel, rfl⟩ := List.mem_map.1 hentry
    exact ⟨_, Schema.ofModel_complete options (hdistinct.fieldNames model hmodel)⟩
  refine ⟨fun definition hmem => ?_, fun schema hmem => ?_, fun items nullable hcontains => ?_⟩
  · obtain ⟨fields, rfl⟩ := hdefinition definition hmem
    refine ⟨_, _, rfl, fun property hproperty => ?_⟩
    rw [Schema.plainProperties, List.map_map] at hproperty
    obtain ⟨field, -, rfl⟩ := List.mem_map.1 hproperty
    exact Document.accepts_null_widenOptional hdistinct
  · obtain ⟨type, rfl⟩ := Document.exists_type_of_mem_bodySchemas hmem
    exact Document.not_accepts_null_ofType hdistinct type
  · obtain ⟨whole, hwhole, hpart⟩ := hcontains
    -- wherever the array stands, its items are of a type
    have hitem : ∃ item, items = .ofType item := by
      rcases List.mem_append.1 hwhole with hmem | hmem
      · obtain ⟨fields, rfl⟩ := hdefinition whole hmem
        exact Schema.exists_type_of_hasPart_ofFields hpart
      · obtain ⟨type, rfl⟩ := Document.exists_type_of_mem_bodySchemas hmem
        exact Schema.exists_type_of_hasPart_ofType hpart
    obtain ⟨item, rfl⟩ := hitem
    exact Document.not_accepts_null_ofType hdistinct item

/-- A model with one property of each kind that `null` is written for in its own way. -/
theorem obeysNullability_selfReferring :
    ∃ document,
      compile "A:\n  at: datetime\n  all: [A]\n  up: A\n  n*: integer\n" "POST /\n  A\n  => [A]\n"
        ⟨false, true⟩ = .ok document ∧
      ∀ formats, document.ObeysNullability formats true := by
  have hbuild : Specification.build "A:\n  at: datetime\n  all: [A]\n  up: A\n  n*: integer\n"
      "POST /\n  A\n  => [A]\n" ⟨false, true⟩ =
        .ok ⟨[("A", ⟨"A", 1, [⟨"at", 2, .scalar .datetime, false, true⟩,
            ⟨"all", 3, .array (.model "A"), false, true⟩, ⟨"up", 4, .model "A", false, true⟩,
            ⟨"n", 5, .scalar .integer, true, false⟩]⟩)],
          [⟨.post, "/", 1, some (.model "A"), some (.model "A"), true⟩], ⟨false, true⟩⟩ := by
    decide +kernel
  have hok := (compile_of_build hbuild).trans rfl
  exact ⟨_, hok, fun formats => obeysNullability_of_compile hok formats⟩

end ApiShorthand
