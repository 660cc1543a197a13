import ApiShorthand.Proofs.Table
import ApiShorthand.Schema

/-!
# References of schemas

`Json.references` lists what stands under `$ref` anywhere in a JSON value. In the schema of a type
that is the reference of the type and nothing else (`references_ofType`), and neither `null` nor an
array around it changes that.
-/

namespace ApiShorthand

namespace Json

/-- The value is an object. -/
def isObject : Json → Bool
  | object _ => true
  | _ => false

mutual

/-- The values under `$ref` anywhere in a value, from left to right. An object under that key is no
reference: there the key is the name of a property, of a definition or of a path. -/
def references : Json → List Json
  | array items => listReferences items
  | object entries => entryReferences entries
  | _ => []

/-- The values under `$ref` anywhere in the items of a list. -/
def listReferences : List Json → List Json
  | [] => []
  | item :: rest => references item ++ listReferences rest

/-- The values under `$ref` in the entries of an object, or anywhere below them. -/
def entryReferences : List (String × Json) → List Json
  | [] => []
  | (key, value) :: rest =>
    (if key = "$ref" ∧ !value.isObject then [value] else references value) ++ entryReferences rest

end

@[simp] theorem references_string (text : String) : references (string text) = [] := rfl

@[simp] theorem references_array (items : List Json) :
    references (array items) = items.flatMap references := by
  show listReferences items = _
  induction items with
  | nil => rfl
  | cons item rest ih => rw [listReferences, ih, List.flatMap_cons]

@[simp] theorem references_object_nil : references (object []) = [] := rfl

theorem references_object_cons (key : String) (value : Json) (rest : List (String × Json)) :
    references (object ((key, value) :: rest)) =
      (if key = "$ref" ∧ !value.isObject then [value] else references value) ++
        references (object rest) := rfl

/-- Only what stands below an entry counts, if the key is another one. -/
@[simp] theorem references_object_cons_of_ne {key : String} (value : Json)
    (rest : List (String × Json)) (h : key ≠ "$ref") :
    references (object ((key, value) :: rest)) = references value ++ references (object rest) := by
  rw [references_object_cons, if_neg fun hkey => h hkey.1]

theorem references_object_append (entries rest : List (String × Json)) :
    references (object (entries ++ rest)) =
      references (object entries) ++ references (object rest) := by
  induction entries with
  | nil => rfl
  | cons entry entries ih =>
    obtain ⟨key, value⟩ := entry
    rw [List.cons_append, references_object_cons, references_object_cons, ih, List.append_assoc]

/-- A table of objects has the references of its values, whatever its keys are. -/
theorem references_object_mapValues {α : Type} {f : α → Json} (table : Table α)
    (hf : ∀ value, (f value).isObject) :
    references (object (table.mapValues f)) =
      table.values.flatMap fun value => references (f value) := by
  induction table with
  | nil => rfl
  | cons entry rest ih =>
    obtain ⟨key, value⟩ := entry
    have hvalue : ¬ (key = "$ref" ∧ !(f value).isObject) := by
      rw [hf value]
      exact fun h => Bool.false_ne_true h.2
    show references (object ((key, f value) :: Table.mapValues f rest)) = _
    rw [references_object_cons, if_neg hvalue, ih]
    rfl

end Json

namespace Schema

open Json

theorem isObject_toJson (schema : Schema) : schema.toJson.isObject := by
  cases schema <;> rw [toJson] <;> rfl

/-! ### One form of schema at a time -/

@[simp] theorem references_scalar (kind : ScalarKind) (nullable : Bool) :
    (scalar kind nullable).toJson.references = [] := by
  rw [toJson]
  cases kind <;> cases nullable <;> rfl

@[simp] theorem references_null : null.toJson.references = [] := by
  rw [toJson]
  rfl

@[simp] theorem references_reference (model : String) :
    (reference model).toJson.references = [.string (referencePath model)] := by
  rw [toJson]
  rfl

theorem references_typeJson (name : String) (nullable : Bool) :
    (typeJson name nullable).references = [] := by
  cases nullable <;> rfl

@[simp] theorem references_array (items : Schema) (nullable : Bool) :
    (array items nullable).toJson.references = items.toJson.references := by
  rw [toJson, references_object_cons_of_ne _ _ (by decide),
    references_object_cons_of_ne _ _ (by decide), references_typeJson, references_object_nil,
    List.nil_append, List.append_nil]

@[simp] theorem references_anyOf (alternatives : List Schema) :
    (anyOf alternatives).toJson.references =
      alternatives.flatMap fun schema => schema.toJson.references := by
  rw [toJson, references_object_cons_of_ne _ _ (by decide), references_object_nil, List.append_nil,
    Json.references_array, listJson_eq_map, List.flatMap_map]

theorem references_requiredEntry (names : List String) :
    (Json.object (requiredEntry names)).references = [] := by
  rw [requiredEntry]
  split
  · rfl
  · rw [references_object_cons_of_ne _ _ (by decide), references_object_nil, List.append_nil,
      Json.references_array, List.flatMap_map, List.flatMap_eq_nil_iff]
    exact fun name _ => rfl

@[simp] theorem references_object (properties : List (String × Schema)) (required : List String)
    (nullable : Bool) :
    (object properties required nullable).toJson.references =
      (Table.values properties).flatMap fun schema => schema.toJson.references := by
  rw [toJson, references_object_cons_of_ne _ _ (by decide),
    references_object_cons_of_ne _ _ (by decide), references_typeJson, references_requiredEntry,
    List.nil_append, List.append_nil, entriesJson_eq_map]
  exact references_object_mapValues properties isObject_toJson

/-! ### Emitted schemas -/

/-- The references of a schema for a type that refers to a model, or to none. -/
def referencesTo (name? : Option String) : List Json :=
  name?.toList.map fun name => .string (referencePath name)

/-- **The references of a type**: its schema has the one reference of the type, if it has one. -/
theorem references_ofType (type : TypeRef) :
    (ofType type).toJson.references = referencesTo type.reference? := by
  induction type with
  | scalar kind => exact references_scalar kind false
  | model name => exact references_reference name
  | array item ih => rw [ofType_array, references_array, ih, TypeRef.reference?_array]

/-- Widening by `null` adds no reference and loses none. -/
theorem references_orNull (schema : Schema) :
    schema.orNull.toJson.references = schema.toJson.references := by
  -- as an alternative, `null` stands beside the schema
  have hwidened : ∀ schema : Schema,
      (anyOf [schema, null]).toJson.references = schema.toJson.references := by
    intro schema
    rw [references_anyOf, List.flatMap_cons, List.flatMap_cons, List.flatMap_nil, references_null,
      List.append_nil, List.append_nil]
  cases schema with
  | scalar kind nullable => rw [orNull, references_scalar, references_scalar]
  | array items nullable => rw [orNull, references_array, references_array]
  | object properties required nullable => rw [orNull, references_object, references_object]
  | null => rfl
  | reference model => exact hwidened (reference model)
  | anyOf alternatives => exact hwidened (anyOf alternatives)

theorem references_ofField (field : Field) :
    (ofField field).toJson.references = referencesTo field.type.reference? := by
  rw [ofField]
  split
  · rw [references_orNull, references_ofType]
  · exact references_ofType field.type

/-- Every reference of a definition is that of a field. -/
theorem exists_field_of_mem_references {model : Model} {value : Json}
    (h : value ∈ (ofModel model).toJson.references) :
    ∃ field ∈ model.fields, value ∈ referencesTo field.type.reference? := by
  rw [ofModel, references_object, List.mem_flatMap] at h
  obtain ⟨schema, hschema, hvalue⟩ := h
  obtain ⟨property, hproperty, rfl⟩ := List.mem_map.1 hschema
  obtain ⟨field, hfield, rfl⟩ := List.mem_map.1 (Table.mem_of_mem_ofList hproperty)
  exact ⟨field, hfield, references_ofField field ▸ hvalue⟩

end Schema

end ApiShorthand
