import ApiShorthand.Proofs.Table
import ApiShorthand.Schema
import Mathlib.Logic.Function.Basic

/-!
# Faithfulness of schemas

The JSON form of a schema determines the schema (`toJson_injective`): the entries tell the forms
apart, except that `null` and a scalar differ in the name of the `type` only. The schema of a field
determines its type and whether `null` is a value of it (`ofField_inj`), and the definition of a
model determines its fields up to their lines, if they have distinct names (`ofModel_inj`).
-/

namespace ApiShorthand

namespace Schema

/-! ### The parts of a JSON form -/

theorem typeJson_inj {name name' : String} {nullable nullable' : Bool}
    (h : typeJson name nullable = typeJson name' nullable') :
    name = name' ∧ nullable = nullable' := by
  cases nullable <;> cases nullable' <;> simp_all [typeJson]

/-- A list that is left out where it is empty is told from every other one. -/
theorem optionalEntry_inj {α : Type} {key : String} {f : α → Json} (hf : Function.Injective f)
    {items items' : List α}
    (h : (if items.isEmpty then [] else [(key, Json.array (items.map f))]) =
      if items'.isEmpty then [] else [(key, Json.array (items'.map f))]) : items = items' := by
  cases items with
  | nil =>
    cases items' with
    | nil => rfl
    | cons => cases h
  | cons =>
    cases items' with
    | nil => cases h
    | cons =>
      have hitems := Json.array.inj (congrArg Prod.snd (List.cons.inj h).1)
      exact List.map_injective_iff.2 hf hitems

theorem requiredEntry_injective : Function.Injective requiredEntry :=
  fun _ _ => optionalEntry_inj fun _ _ => Json.string.inj

theorem referencePath_injective : Function.Injective referencePath :=
  fun _ _ => (String.append_right_inj _).1

/-- A date with a time is told from a text by its format. -/
theorem kind_eq_of_schemaType_of_format? {kind kind' : ScalarKind}
    (htype : kind.schemaType = kind'.schemaType) (hformat : kind.format? = kind'.format?) :
    kind = kind' := by
  revert htype hformat
  cases kind <;> cases kind' <;> decide

theorem schemaType_ne_null (kind : ScalarKind) : kind.schemaType ≠ "null" := by
  cases kind <;> decide

/-! ### One form of schema at a time -/

theorem eq_scalar_of_toJson {kind : ScalarKind} {nullable : Bool} {schema : Schema}
    (h : (scalar kind nullable).toJson = schema.toJson) : schema = scalar kind nullable := by
  have hnull : kind.schemaType ≠ "null" := schemaType_ne_null kind
  cases schema with
  | scalar kind' nullable' =>
    rw [toJson, toJson] at h
    -- the `type` and what follows it, which is the `format` of a date or nothing
    obtain ⟨htype, hformat⟩ := List.cons.inj (Json.object.inj h)
    obtain ⟨hname, rfl⟩ := typeJson_inj (congrArg Prod.snd htype)
    have hformat' : kind.format? = kind'.format? := by
      cases hkind : kind.format? <;> cases hkind' : kind'.format? <;> simp_all
    rw [kind_eq_of_schemaType_of_format? hname hformat']
  | null => cases nullable <;> simp_all [toJson, typeJson]
  | _ => cases kind <;> simp [toJson, ScalarKind.format?] at h

theorem eq_null_of_toJson {schema : Schema} (h : null.toJson = schema.toJson) : schema = null := by
  cases schema with
  | null => rfl
  | scalar kind nullable => cases eq_scalar_of_toJson h.symm
  | _ => simp [toJson] at h

theorem eq_reference_of_toJson {model : String} {schema : Schema}
    (h : (reference model).toJson = schema.toJson) : schema = reference model := by
  cases schema with
  | reference model' =>
    rw [toJson, toJson] at h
    rw [referencePath_injective
      (Json.string.inj (congrArg Prod.snd (List.cons.inj (Json.object.inj h)).1))]
  | _ => simp [toJson] at h

theorem exists_array_of_toJson {items : Schema} {nullable : Bool} {schema : Schema}
    (h : (array items nullable).toJson = schema.toJson) :
    ∃ items', schema = array items' nullable ∧ items.toJson = items'.toJson := by
  cases schema with
  | array items' nullable' =>
    rw [toJson, toJson] at h
    obtain ⟨htype, hrest⟩ := List.cons.inj (Json.object.inj h)
    obtain ⟨-, rfl⟩ := typeJson_inj (congrArg Prod.snd htype)
    exact ⟨items', rfl, congrArg Prod.snd (List.cons.inj hrest).1⟩
  | scalar kind nullable' => cases eq_scalar_of_toJson h.symm
  | _ => simp [toJson] at h

theorem exists_object_of_toJson {properties : List (String × Schema)} {required : List String}
    {nullable : Bool} {schema : Schema}
    (h : (object properties required nullable).toJson = schema.toJson) :
    ∃ properties', schema = object properties' required nullable ∧
      entriesJson properties = entriesJson properties' := by
  cases schema with
  | object properties' required' nullable' =>
    rw [toJson, toJson] at h
    obtain ⟨htype, hrest⟩ := List.cons.inj (Json.object.inj h)
    obtain ⟨-, rfl⟩ := typeJson_inj (congrArg Prod.snd htype)
    obtain ⟨hproperties, hrequired⟩ := List.cons.inj hrest
    rw [requiredEntry_injective hrequired]
    exact ⟨properties', rfl, Json.object.inj (congrArg Prod.snd hproperties)⟩
  | scalar kind nullable' => cases eq_scalar_of_toJson h.symm
  | _ => simp [toJson] at h

theorem exists_anyOf_of_toJson {alternatives : List Schema} {schema : Schema}
    (h : (anyOf alternatives).toJson = schema.toJson) :
    ∃ alternatives', schema = anyOf alternatives' ∧
      listJson alternatives = listJson alternatives' := by
  cases schema with
  | anyOf alternatives' =>
    rw [toJson, toJson] at h
    exact ⟨alternatives', rfl,
      Json.array.inj (congrArg Prod.snd (List.cons.inj (Json.object.inj h)).1)⟩
  | _ => simp [toJson] at h

/-! ### All schemas -/

mutual

theorem toJson_inj : ∀ {schema schema' : Schema}, schema.toJson = schema'.toJson → schema = schema'
  | scalar kind nullable, schema', h => (eq_scalar_of_toJson h).symm
  | array items nullable, schema', h => by
    obtain ⟨items', rfl, hitems⟩ := exists_array_of_toJson h
    rw [toJson_inj hitems]
  | object properties required nullable, schema', h => by
    obtain ⟨properties', rfl, hproperties⟩ := exists_object_of_toJson h
    rw [entriesJson_inj hproperties]
  | reference model, schema', h => (eq_reference_of_toJson h).symm
  | null, schema', h => (eq_null_of_toJson h).symm
  | anyOf alternatives, schema', h => by
    obtain ⟨alternatives', rfl, halternatives⟩ := exists_anyOf_of_toJson h
    rw [listJson_inj halternatives]

theorem listJson_inj : ∀ {schemas schemas' : List Schema},
    listJson schemas = listJson schemas' → schemas = schemas'
  | [], [], _ => rfl
  | [], _ :: _, h => by cases h
  | _ :: _, [], h => by cases h
  | schema :: rest, schema' :: rest', h => by
    obtain ⟨hschema, hrest⟩ := List.cons.inj h
    rw [toJson_inj hschema, listJson_inj hrest]

theorem entriesJson_inj : ∀ {entries entries' : List (String × Schema)},
    entriesJson entries = entriesJson entries' → entries = entries'
  | [], [], _ => rfl
  | [], _ :: _, h => by cases h
  | _ :: _, [], h => by cases h
  | (key, schema) :: rest, (key', schema') :: rest', h => by
    obtain ⟨hentry, hrest⟩ := List.cons.inj h
    obtain ⟨rfl, hschema⟩ := Prod.mk.inj hentry
    rw [toJson_inj hschema, entriesJson_inj hrest]

end

/-- **The JSON form of a schema determines the schema**. -/
theorem toJson_injective : Function.Injective toJson :=
  fun _ _ => toJson_inj

/-! ### Types and fields -/

theorem ofType_injective : Function.Injective ofType := by
  intro type type' h
  induction type generalizing type' with
  | scalar kind =>
    cases type' with
    | scalar kind' =>
      cases h
      rfl
    | _ => cases h
  | model name =>
    cases type' with
    | model name' =>
      cases h
      rfl
    | _ => cases h
  | array item ih =>
    cases type' with
    | array item' =>
      rw [ofType_array, ofType_array] at h
      rw [ih (Schema.array.inj h).1]
    | _ => cases h

/-- A type whose schema was widened is told from every type that was not. -/
theorem orNull_ofType_ne (type type' : TypeRef) : (ofType type).orNull ≠ ofType type' := by
  cases type <;> cases type' <;> simp [orNull]

theorem orNull_ofType_inj {type type' : TypeRef}
    (h : (ofType type).orNull = (ofType type').orNull) : type = type' := by
  refine ofType_injective ?_
  cases type <;> cases type' <;> simp_all [orNull]

/-- The schema of a field determines its type and whether `null` is a value of it. -/
theorem ofField_inj {field field' : Field} (h : ofField field = ofField field') :
    field.type = field'.type ∧ field.nullable = field'.nullable := by
  unfold ofField at h
  cases hnull : field.nullable <;> cases hnull' : field'.nullable <;> rw [hnull, hnull'] at h
  · exact ⟨ofType_injective h, rfl⟩
  · exact absurd h.symm (orNull_ofType_ne field'.type field.type)
  · exact absurd h (orNull_ofType_ne field.type field'.type)
  · exact ⟨orNull_ofType_inj h, rfl⟩

end Schema

/-! ### Models -/

/-- Two lists with the same images under `f` have the same images under `g`, if `f` determines `g`
on their items. -/
theorem map_eq_map_of_map_eq {α β γ : Type} {f : α → β} {g : α → γ} {l l' : List α}
    (h : l.map f = l'.map f) (hfg : ∀ a ∈ l, ∀ a' ∈ l', f a = f a' → g a = g a') :
    l.map g = l'.map g := by
  induction l generalizing l' with
  | nil =>
    rw [List.map_nil] at h
    rw [List.map_eq_nil_iff.1 h.symm]
  | cons a l ih =>
    cases l' with
    | nil => cases h
    | cons a' l' =>
      rw [List.map_cons, List.map_cons] at h
      obtain ⟨hhead, htail⟩ := List.cons.inj h
      rw [List.map_cons, List.map_cons,
        hfg a List.mem_cons_self a' List.mem_cons_self hhead,
        ih htail fun b hb b' hb' =>
          hfg b (List.mem_cons_of_mem a hb) b' (List.mem_cons_of_mem a' hb')]

/-- The field without the number of its line. -/
def Field.unnumbered (field : Field) : Field :=
  { field with line := 0 }

/-- The model without the numbers of its lines. -/
def Model.unnumbered (model : Model) : Model :=
  { model with line := 0, fields := model.fields.map Field.unnumbered }

/-- A field of a model with distinct field names is required exactly if its name is listed. -/
theorem Model.mem_requiredNames_iff {model : Model} (h : (model.fields.map (·.name)).Nodup)
    {field : Field} (hfield : field ∈ model.fields) :
    field.name ∈ (model.fields.filter (·.required)).map (·.name) ↔ field.required = true := by
  rw [List.mem_map]
  constructor
  · rintro ⟨other, hother, hname⟩
    obtain ⟨hother, hrequired⟩ := List.mem_filter.1 hother
    rwa [← List.inj_on_of_nodup_map h hother hfield hname]
  · intro hrequired
    exact ⟨field, List.mem_filter.2 ⟨hfield, hrequired⟩, rfl⟩

/-- **The definition of a model determines its fields** up to their lines, if these have distinct
names. -/
theorem Schema.ofModel_inj {model model' : Model} (h : ofModel model = ofModel model')
    (hdistinct : (model.fields.map (·.name)).Nodup)
    (hdistinct' : (model'.fields.map (·.name)).Nodup) :
    model.fields.map Field.unnumbered = model'.fields.map Field.unnumbered := by
  -- with distinct names, the table of properties is the list of the fields
  have hkeys : ∀ model : Model,
      (model.fields.map fun field => (field.name, ofField field)).map Prod.fst =
        model.fields.map (·.name) := by
    intro model
    rw [List.map_map]
    rfl
  obtain ⟨hproperties, hrequired, -⟩ := Schema.object.inj h
  rw [Table.ofList_eq_self (by rwa [hkeys]), Table.ofList_eq_self (by rwa [hkeys])] at hproperties
  refine map_eq_map_of_map_eq hproperties fun field hfield field' hfield' heq => ?_
  obtain ⟨hname, hschema⟩ := Prod.mk.inj heq
  obtain ⟨htype, hnullable⟩ := ofField_inj hschema
  -- the required fields are listed by name
  have hiff : field.required = true ↔ field'.required = true := by
    rw [← Model.mem_requiredNames_iff hdistinct hfield,
      ← Model.mem_requiredNames_iff hdistinct' hfield', hrequired, hname]
  rw [Field.unnumbered, Field.unnumbered, hname, htype, hnullable, Bool.eq_iff_iff.2 hiff]

end ApiShorthand
