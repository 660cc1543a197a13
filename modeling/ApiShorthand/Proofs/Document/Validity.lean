import ApiShorthand.Proofs.Document.Options
import ApiShorthand.Proofs.Schema.Validation
import Mathlib.Order.FixedPoints

/-!
# The values of a document

In a document the references of a schema stand for the values that are valid for the definitions of
the document, and these are given by schemas again. `IsValid` is the least solution of that equation
(`isValid_iff`): following references has to come to an end.

Every definition of a compiled document is an object schema, so that only objects are valid for it,
and these are known field by field (`isValid_model_iff`).
-/

namespace ApiShorthand

namespace Schema

variable {formats : String → String → Prop} {models : String → Json → Prop} {value : Json}

theorem accepts_widenOptional {addNulls : Bool} {required : List String} {name : String}
    {schema : Schema} :
    Accepts formats models (widenOptional addNulls required (name, schema)).2 value ↔
      Accepts formats models schema value ∨
        (addNulls = true ∧ name ∉ required) ∧ value = .null := by
  simp only [widenOptional]
  split_ifs with hwiden
  · simp [accepts_orNull, hwiden]
  · simp [hwiden]

theorem accepts_ofFields {addNulls : Bool} {fields : List Field} :
    Accepts formats models (ofFields addNulls fields) value ↔ ∃ entries, value = .object entries ∧
      (∀ field ∈ fields, ∀ part, (field.name, part) ∈ entries →
        Accepts formats models (ofType field.type) part ∨
          (addNulls = true ∧ field.name ∉ Model.requiredNames fields) ∧ part = .null) ∧
      ∀ name ∈ Model.requiredNames fields, name ∈ Table.keys entries := by
  simp only [ofFields, plainProperties, accepts_object, Bool.false_eq_true, false_and, or_false,
    List.forall_mem_map, accepts_widenOptional]
  rfl

end Schema

namespace Document

variable (formats : String → String → Prop)

/-- The values that definitions accept, if references stand for the values of `models`. -/
def accepted (document : Document) : (String → Json → Prop) →o (String → Json → Prop) where
  toFun models name value := ∃ definition, document.definitions.find? name = some definition ∧
    definition.Accepts formats models value
  monotone' := by
    rintro models models' hmodels name value ⟨definition, hfind, haccepts⟩
    exact ⟨definition, hfind, haccepts.mono hmodels⟩

/-- A value is valid for the definition of a name. -/
def IsValid (document : Document) : String → Json → Prop :=
  (document.accepted formats).lfp

/-- A schema in the document accepts a value. -/
def Accepts (document : Document) (schema : Schema) (value : Json) : Prop :=
  schema.Accepts formats (document.IsValid formats) value

variable {formats : String → String → Prop} {document : Document}

theorem isValid_iff {name : String} {value : Json} :
    document.IsValid formats name value ↔ ∃ definition,
      document.definitions.find? name = some definition ∧
        document.Accepts formats definition value := by
  have hfixed := congrFun (congrFun (document.accepted formats).map_lfp name) value
  exact (iff_of_eq hfixed).symm

/-- What contains all values that definitions accept in it contains all valid values. -/
theorem isValid_le {models : String → Json → Prop}
    (h : ∀ name value definition, document.definitions.find? name = some definition →
      definition.Accepts formats models value → models name value) {name : String} {value : Json}
    (hvalid : document.IsValid formats name value) : models name value := by
  refine (document.accepted formats).lfp_le ?_ name value hvalid
  rintro name value ⟨definition, hfind, haccepts⟩
  exact h name value definition hfind haccepts

/-! ### Compiled definitions -/

theorem find?_ofDeclarations_eq_some_iff {options : Options} {models : List Model}
    (hdistinct : Model.HaveDistinctNames models) {endpoints : List Endpoint} {name : String}
    {definition : Schema} :
    (ofDeclarations options models endpoints).definitions.find? name = some definition ↔
      ∃ model ∈ models, model.name = name ∧
        definition = Schema.ofFields options.addNulls (model.allFields options.addDefaults) := by
  have hnodup : (ofDeclarations options models endpoints).definitions.keys.Nodup := by
    rw [keys_definitions_ofDeclarations]
    exact hdistinct.modelNames
  rw [Table.find?_eq_some_iff hnodup, ofDeclarations, List.mem_map]
  refine exists_congr fun model => and_congr_right fun hmodel => ?_
  rw [Schema.ofModel_complete options (hdistinct.fieldNames model hmodel), Prod.mk.injEq]
  exact and_congr_right fun _ => eq_comm

theorem find?_ofDeclarations_of_mem {options : Options} {models : List Model}
    (hdistinct : Model.HaveDistinctNames models) {endpoints : List Endpoint} {model : Model}
    (hmodel : model ∈ models) :
    (ofDeclarations options models endpoints).definitions.find? model.name =
      some (.ofFields options.addNulls (model.allFields options.addDefaults)) :=
  (find?_ofDeclarations_eq_some_iff hdistinct).2 ⟨model, hmodel, rfl, rfl⟩

theorem isValid_model_iff {options : Options} {models : List Model}
    (hdistinct : Model.HaveDistinctNames models) {endpoints : List Endpoint} {model : Model}
    (hmodel : model ∈ models) {value : Json} :
    (ofDeclarations options models endpoints).IsValid formats model.name value ↔
      (ofDeclarations options models endpoints).Accepts formats
        (.ofFields options.addNulls (model.allFields options.addDefaults)) value := by
  rw [isValid_iff, find?_ofDeclarations_of_mem hdistinct hmodel]
  simp

theorem exists_model_of_isValid {options : Options} {models : List Model}
    (hdistinct : Model.HaveDistinctNames models) {endpoints : List Endpoint} {name : String}
    {value : Json} (h : (ofDeclarations options models endpoints).IsValid formats name value) :
    ∃ model ∈ models, model.name = name := by
  obtain ⟨definition, hfind, -⟩ := isValid_iff.1 h
  obtain ⟨model, hmodel, hname, -⟩ := (find?_ofDeclarations_eq_some_iff hdistinct).1 hfind
  exact ⟨model, hmodel, hname⟩

end Document

end ApiShorthand
