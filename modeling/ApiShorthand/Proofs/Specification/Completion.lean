import ApiShorthand.Proofs.Schema.Injective
import ApiShorthand.Proofs.Specification.Building

/-!
# Correctness of `Model.complete`

The options of a run do two things to a model: the default fields that it does not declare itself
go behind its own fields (`fields_withDefaults`), and the optional fields are marked. Neither moves
or changes what is declared, so that the definition of the completed model is known field by field
(`ofModel_complete`).
-/

namespace ApiShorthand

namespace Field

/-- The field with the mark "may be null" that it gets. -/
def marked (addNulls : Bool) (field : Field) : Field :=
  { field with nullable := addNulls && !field.required }

theorem nodup_names_defaults : (defaults.map (·.name)).Nodup := by decide

end Field

namespace Model

/-- The default fields whose names a model does not declare. -/
def missingDefaults (model : Model) : List Field :=
  Field.defaults.filter (·.name ∉ model.fields.map (·.name))

/-- The fields of a model, with the missing default fields behind them or not. -/
def allFields (addDefaults : Bool) (model : Model) : List Field :=
  model.fields ++ if addDefaults then model.missingDefaults else []

theorem fields_addMissing (model : Model) (field : Field) :
    (model.addMissing field).fields =
      model.fields ++ if field.name ∈ model.fields.map (·.name) then [] else [field] := by
  unfold addMissing
  by_cases h : field.name ∈ model.fields.map (·.name)
  · rw [if_pos (isSome_field?_iff.2 h), if_pos h, List.append_nil]
  · rw [if_neg (isSome_field?_iff.not.2 h), if_neg h]

/-- Fields of distinct names that are added in turn do not get in each other's way. -/
theorem fields_foldl_addMissing (model : Model) {fields : List Field}
    (h : (fields.map (·.name)).Nodup) :
    (fields.foldl addMissing model).fields =
      model.fields ++ fields.filter (·.name ∉ model.fields.map (·.name)) := by
  induction fields generalizing model with
  | nil => simp
  | cons field fields ih =>
    rw [List.map_cons, List.nodup_cons] at h
    rw [List.foldl_cons, ih _ h.2, fields_addMissing]
    by_cases hmem : field.name ∈ model.fields.map (·.name)
    · rw [if_pos hmem, List.append_nil, List.filter_cons_of_neg (by simpa using hmem)]
    · -- the field that was just added has none of the names that follow
      have hfilter : fields.filter (·.name ∉ (model.fields ++ [field]).map (·.name)) =
          fields.filter (·.name ∉ model.fields.map (·.name)) := by
        refine List.filter_congr fun other hother => ?_
        have hne : other.name ≠ field.name := by
          intro heq
          exact h.1 (heq ▸ List.mem_map_of_mem hother)
        simp [hne]
      rw [if_neg hmem, hfilter, List.filter_cons_of_pos (by simpa using hmem)]
      simp

theorem fields_withDefaults (model : Model) :
    model.withDefaults.fields = model.fields ++ model.missingDefaults :=
  fields_foldl_addMissing model Field.nodup_names_defaults

theorem fields_complete (options : Options) (model : Model) :
    (model.complete options).fields =
      (model.allFields options.addDefaults).map (Field.marked options.addNulls) := by
  rw [complete, markNullable, allFields]
  split
  · rw [fields_withDefaults]
    rfl
  · rw [List.append_nil]
    rfl

theorem names_complete (options : Options) (model : Model) :
    (model.complete options).fields.map (·.name) =
      (model.allFields options.addDefaults).map (·.name) := by
  rw [fields_complete, List.map_map]
  rfl

theorem nodup_names_allFields (addDefaults : Bool) {model : Model}
    (h : (model.fields.map (·.name)).Nodup) :
    ((model.allFields addDefaults).map (·.name)).Nodup := by
  have hcomplete := nodup_fieldNames_complete ⟨addDefaults, false⟩ h
  rwa [names_complete] at hcomplete

/-- The names of the required fields, in order. -/
def requiredNames (fields : List Field) : List String :=
  (fields.filter (·.required)).map (·.name)

theorem requiredNames_marked (addNulls : Bool) (fields : List Field) :
    requiredNames (fields.map (Field.marked addNulls)) = requiredNames fields := by
  rw [requiredNames, List.filter_map, List.map_map]
  rfl

theorem mem_requiredNames_iff_required {fields : List Field} (h : (fields.map (·.name)).Nodup)
    {field : Field} (hfield : field ∈ fields) :
    field.name ∈ requiredNames fields ↔ field.required = true :=
  @mem_requiredNames_iff ⟨"", 0, fields⟩ h field hfield

end Model

namespace Schema

/-- The properties of fields, for none of which `null` is a value. -/
def plainProperties (fields : List Field) : List (String × Schema) :=
  fields.map fun field => (field.name, ofType field.type)

/-- A property, widened by `null` if that is wanted and the property is not required. -/
def widenOptional (addNulls : Bool) (required : List String) (property : String × Schema) :
    String × Schema :=
  (property.1,
    if addNulls = true ∧ property.1 ∉ required then property.2.orNull else property.2)

@[simp] theorem keys_plainProperties (fields : List Field) :
    Table.keys (plainProperties fields) = fields.map (·.name) := by
  simp [Table.keys, plainProperties]

@[simp] theorem keys_map_widenOptional (addNulls : Bool) (required : List String)
    (properties : List (String × Schema)) :
    Table.keys (properties.map (widenOptional addNulls required)) = Table.keys properties := by
  simp [Table.keys, widenOptional]

@[simp] theorem map_widenOptional_false (required : List String)
    (properties : List (String × Schema)) :
    properties.map (widenOptional false required) = properties := by
  have hid : widenOptional false required = id := by
    funext property
    simp [widenOptional]
  rw [hid, List.map_id]

/-- With distinct names, the properties of a definition are the fields as they stand. -/
theorem ofModel_of_nodup {model : Model} (h : (model.fields.map (·.name)).Nodup) :
    ofModel model = object (model.fields.map fun field => (field.name, ofField field))
      (Model.requiredNames model.fields) false := by
  rw [ofModel, Table.ofList_eq_self (by rwa [List.map_map])]
  rfl

/-- A mark on a field is told from the list of the required names. -/
theorem ofField_marked (addNulls : Bool) {fields : List Field}
    (h : (fields.map (·.name)).Nodup) {field : Field} (hfield : field ∈ fields) :
    (field.name, ofField (field.marked addNulls)) =
      widenOptional addNulls (Model.requiredNames fields) (field.name, ofType field.type) := by
  have hiff := Model.mem_requiredNames_iff_required h hfield
  simp only [widenOptional, hiff]
  cases addNulls <;> cases hrequired : field.required <;>
    simp [ofField, Field.marked, hrequired]

/-- The definition that fields of distinct names give, the optional ones widened by `null` or not. -/
def ofFields (addNulls : Bool) (fields : List Field) : Schema :=
  object ((plainProperties fields).map (widenOptional addNulls (Model.requiredNames fields)))
    (Model.requiredNames fields) false

/-- **The definition of a completed model** is that of its own fields and of the missing default
fields, if the options ask for them. -/
theorem ofModel_complete (options : Options) {model : Model}
    (h : (model.fields.map (·.name)).Nodup) :
    ofModel (model.complete options) =
      ofFields options.addNulls (model.allFields options.addDefaults) := by
  have hnodup := Model.nodup_names_allFields options.addDefaults h
  rw [ofModel_of_nodup (Model.nodup_fieldNames_complete options h), Model.fields_complete,
    Model.requiredNames_marked, ofFields, plainProperties, List.map_map, List.map_map]
  congr 1
  apply List.map_congr_left
  intro field hfield
  have hwiden := ofField_marked options.addNulls hnodup hfield
  exact hwiden

end Schema

end ApiShorthand
