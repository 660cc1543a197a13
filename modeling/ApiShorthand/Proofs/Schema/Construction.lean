import ApiShorthand.Proofs.Schema.Validation

/-!
# What built schemas accept

A schema is built from the schema of a type or from the definition of a model, by arrays and by
widening, in any order and any number of times (`Construction`). Which values are meant by it is
said along the same steps and without any schema (`Construction.Describes`), and the schema accepts
just these values (`accepts_schema_iff`), although it writes `null` in three ways.

So widening adds `null` wherever it is done, and done twice it adds no more than done once
(`orNull_adds_null`). The second time changes the shape of the schema only where a reference, which
has no `type` to mark, is widened (`orNull_orNull_eq_iff`).
-/

namespace ApiShorthand

/-! ### The shape of widened schemas -/

namespace Schema

/-- Whether a schema names the type of its values. A reference and a choice do not. -/
def hasType : Schema → Bool
  | reference _ => false
  | anyOf _ => false
  | _ => true

theorem hasType_orNull (schema : Schema) : schema.orNull.hasType = schema.hasType := by
  cases schema <;> rfl

/-- No schema is a choice that it is itself an alternative of. -/
theorem anyOf_pair_ne (alternatives : List Schema) :
    anyOf [anyOf alternatives, null] ≠ anyOf alternatives := by
  intro h
  have hsize : sizeOf [anyOf alternatives, null] = sizeOf alternatives := by
    rw [anyOf.inj h]
  simp only [List.cons.sizeOf_spec, anyOf.sizeOf_spec] at hsize
  omega

/-- A schema is widened a second time without a change exactly if it has a `type`. -/
theorem orNull_orNull_eq_iff {schema : Schema} :
    schema.orNull.orNull = schema.orNull ↔ schema.hasType = true := by
  cases schema with
  | scalar kind nullable => simp [orNull, hasType]
  | array items nullable => simp [orNull, hasType]
  | object properties required nullable => simp [orNull, hasType]
  | null => simp [orNull, hasType]
  | reference model => exact iff_of_false (anyOf_pair_ne _) Bool.false_ne_true
  | anyOf alternatives => exact iff_of_false (anyOf_pair_ne _) Bool.false_ne_true

end Schema

/-! ### Meant values -/

section Describes

variable (formats : String → String → Prop) (models : String → Json → Prop)

/-- The values of a kind: those of its JSON type, and of its format if they are texts. -/
def ScalarKind.Describes (kind : ScalarKind) (value : Json) : Prop :=
  kind.schemaType ∈ value.typeNames ∧
    ∀ format ∈ kind.format?, ∀ text, value = .string text → formats format text

/-- The values of a type. -/
def TypeRef.Describes : TypeRef → Json → Prop
  | scalar kind, value => kind.Describes formats value
  | model name, value => models name value
  | array item, value => ∃ values, value = .array values ∧ ∀ part ∈ values, item.Describes part

/-- The values of a field: those of its type, and `null` if it is marked so. -/
def Field.Describes (field : Field) (value : Json) : Prop :=
  field.type.Describes formats models value ∨ field.nullable = true ∧ value = .null

/-- A field of a model is the last one of its name. -/
def Model.IsLastField (model : Model) (field : Field) : Prop :=
  ∃ before after, model.fields = before ++ field :: after ∧ ∀ later ∈ after, later.name ≠ field.name

/-- The values of a model: objects that have all required fields, and under the name of a field
only values of the last field of that name. -/
def Model.Describes (model : Model) (value : Json) : Prop :=
  ∃ entries, value = .object entries ∧
    (∀ field, model.IsLastField field → ∀ part, (field.name, part) ∈ entries →
      field.Describes formats models part) ∧
    ∀ field ∈ model.fields, field.required = true → field.name ∈ Table.keys entries

end Describes

/-- How a schema is built. -/
inductive Construction where
  /-- As the schema of a type. -/
  | ofType (type : TypeRef)
  /-- As the definition of a model. -/
  | ofModel (model : Model)
  /-- As arrays of what was built. -/
  | arrayOf (items : Construction)
  /-- By widening what was built. -/
  | orNull (built : Construction)

namespace Construction

/-- The schema that is built. -/
def schema : Construction → Schema
  | ofType type => .ofType type
  | ofModel model => .ofModel model
  | arrayOf items => items.schema.arrayOf
  | orNull built => built.schema.orNull

/-- The values that are meant by what is built. -/
def Describes (formats : String → String → Prop) (models : String → Json → Prop) :
    Construction → Json → Prop
  | ofType type, value => type.Describes formats models value
  | ofModel model, value => model.Describes formats models value
  | arrayOf items, value =>
    ∃ values, value = .array values ∧ ∀ part ∈ values, items.Describes formats models part
  | orNull built, value => built.Describes formats models value ∨ value = .null

/-- Whether a reference to a model was built, and at most widened. -/
def isReference : Construction → Bool
  | ofType (.model _) => true
  | orNull built => built.isReference
  | _ => false

theorem hasType_schema (built : Construction) : built.schema.hasType = !built.isReference := by
  induction built with
  | ofType type => cases type <;> rfl
  | ofModel model => rfl
  | arrayOf items _ => rfl
  | orNull built ih => rw [schema, Schema.hasType_orNull, ih, isReference]

end Construction

/-! ### Accepted values -/

namespace Schema

variable {formats : String → String → Prop} {models : String → Json → Prop} {value : Json}

theorem accepts_arrayOf {items : Schema} :
    Accepts formats models items.arrayOf value ↔
      ∃ values, value = .array values ∧ ∀ part ∈ values, Accepts formats models items part := by
  rw [arrayOf, accepts_array]
  simp

/-- The schema of a type accepts the values of the type. -/
theorem accepts_ofType {type : TypeRef} :
    Accepts formats models (ofType type) value ↔ type.Describes formats models value := by
  induction type generalizing value with
  | scalar kind =>
    rw [ofType_scalar, accepts_scalar]
    simp [TypeRef.Describes, ScalarKind.Describes]
  | model name =>
    rw [ofType_model, accepts_reference]
    exact Iff.rfl
  | array item ih =>
    rw [ofType_array, ← arrayOf, accepts_arrayOf]
    refine exists_congr fun values => and_congr_right fun _ => ?_
    exact forall₂_congr fun part _ => ih

theorem accepts_ofField {field : Field} :
    Accepts formats models (ofField field) value ↔ field.Describes formats models value := by
  rw [ofField, Field.Describes]
  by_cases hnullable : field.nullable = true
  · rw [if_pos hnullable, accepts_orNull, accepts_ofType]
    simp [hnullable]
  · rw [if_neg hnullable, accepts_ofType]
    simp [hnullable]

/-- The properties of a model are its fields, each the last one of its name. -/
theorem mem_properties_iff {model : Model} {property : String × Schema} :
    property ∈ Table.ofList (model.fields.map fun field => (field.name, ofField field)) ↔
      ∃ field, model.IsLastField field ∧ property = (field.name, ofField field) := by
  rw [Table.mem_ofList_iff]
  constructor
  · rintro ⟨before, after, hsplit, hlast⟩
    obtain ⟨front, back, hfields, -, hback⟩ := List.map_eq_append_iff.1 hsplit
    obtain ⟨field, rest, rfl, rfl, rfl⟩ := List.map_eq_cons_iff.1 hback
    refine ⟨field, ⟨front, rest, hfields, ?_⟩, rfl⟩
    intro later hlater heq
    exact hlast (by rw [List.map_map]; exact heq ▸ List.mem_map_of_mem hlater)
  · rintro ⟨field, ⟨front, rest, hfields, hlast⟩, rfl⟩
    refine ⟨_, _, by rw [hfields, List.map_append, List.map_cons], ?_⟩
    rw [List.map_map]
    rintro hmem
    obtain ⟨later, hlater, heq⟩ := List.mem_map.1 hmem
    exact hlast later hlater heq

/-- The definition of a model accepts the values of the model. -/
theorem accepts_ofModel {model : Model} :
    Accepts formats models (ofModel model) value ↔ model.Describes formats models value := by
  rw [ofModel, accepts_object, Model.Describes]
  simp only [Bool.false_eq_true, false_and, or_false]
  refine exists_congr fun entries => and_congr_right fun _ => and_congr ?_ ?_
  · constructor
    · intro h field hfield part hpart
      exact accepts_ofField.1 (h _ (mem_properties_iff.2 ⟨field, hfield, rfl⟩) part hpart)
    · intro h property hproperty part hpart
      obtain ⟨field, hfield, rfl⟩ := mem_properties_iff.1 hproperty
      exact accepts_ofField.2 (h field hfield part hpart)
  · simp only [List.forall_mem_map, List.mem_filter, and_imp]

end Schema

namespace Construction

variable {formats : String → String → Prop} {models : String → Json → Prop}

/-- **What is built accepts what is meant**, whatever references and formats stand for. -/
theorem accepts_schema_iff (built : Construction) {value : Json} :
    built.schema.Accepts formats models value ↔ built.Describes formats models value := by
  induction built generalizing value with
  | ofType type => exact Schema.accepts_ofType
  | ofModel model => exact Schema.accepts_ofModel
  | arrayOf items ih =>
    rw [schema, Schema.accepts_arrayOf]
    refine exists_congr fun values => and_congr_right fun _ => ?_
    exact forall₂_congr fun part _ => ih
  | orNull built ih =>
    rw [schema, Schema.accepts_orNull, ih]
    exact Iff.rfl

/-- **Widening adds `null`.** Of whatever was built, the widened schema accepts `null` and what was
accepted before, and the schema of arrays accepts the arrays of what was accepted before. Widening
twice is widening once, in what is accepted; in shape it is so for all but references. -/
theorem orNull_adds_null (built : Construction) (formats : String → String → Prop)
    (models : String → Json → Prop) :
    (∀ value, built.schema.orNull.Accepts formats models value ↔
      built.schema.Accepts formats models value ∨ value = .null) ∧
    (∀ value, built.schema.arrayOf.Accepts formats models value ↔
      ∃ values, value = .array values ∧
        ∀ part ∈ values, built.schema.Accepts formats models part) ∧
    (∀ value, built.schema.orNull.orNull.Accepts formats models value ↔
      built.schema.orNull.Accepts formats models value) ∧
    (built.schema.orNull.orNull.toJson = built.schema.orNull.toJson ↔
      built.isReference = false) ∧
    ∀ value, built.schema.Accepts formats models value ↔ built.Describes formats models value := by
  have hwidened : ∀ (built : Construction) value,
      built.schema.orNull.Accepts formats models value ↔
        built.schema.Accepts formats models value ∨ value = .null := by
    intro built value
    calc built.schema.orNull.Accepts formats models value
        ↔ built.orNull.Describes formats models value := built.orNull.accepts_schema_iff
      _ ↔ built.schema.Accepts formats models value ∨ value = .null :=
          or_congr_left built.accepts_schema_iff.symm
  refine ⟨hwidened built, fun value => Schema.accepts_arrayOf, fun value => ?_, ?_,
    fun value => built.accepts_schema_iff⟩
  · have htwice := hwidened built.orNull value
    rw [schema, hwidened built value, or_assoc, or_self] at htwice
    rw [htwice, hwidened built value]
  · rw [Schema.toJson_injective.eq_iff, Schema.orNull_orNull_eq_iff, hasType_schema,
      Bool.not_eq_true']

end Construction

end ApiShorthand
