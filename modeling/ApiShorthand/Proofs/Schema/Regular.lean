import ApiShorthand.Proofs.Specification.Written
import ApiShorthand.Proofs.Yaml.RoundTrip

/-!
# Schemas are regular values

The names in a source text have no white space, and its types nest no deeper than an array. So the
schemas of bodies are regular values of a small depth (`regular_ofTypeToken`), and so is the
definition of a model (`regular_ofModel`).
-/

namespace ApiShorthand

open Grammar Yaml

/-! ### Objects of known keys -/

/-- Whether keys are told apart and have no white space. -/
def areKeys (keys : List String) : Bool :=
  keys.all (fun key => key.toList.all fun c => !Text.isBlank c) && decide keys.Nodup

/-- An object of known keys. -/
theorem Yaml.Regular.record {depth : Nat} {entries : List (String × Json)} (keys : List String)
    (hentries : entries.map Prod.fst = keys) (hkeys : areKeys keys = true)
    (hvalues : ∀ entry ∈ entries, Regular depth entry.2) :
    Regular (depth + 1) (.object entries) := by
  rw [areKeys, Bool.and_eq_true, decide_eq_true_eq, ← hentries] at hkeys
  refine .object hkeys.2 (fun entry hentry => ?_) hvalues
  exact unbroken_of_all (List.all_eq_true.1 hkeys.1 entry.1 (List.mem_map_of_mem hentry))

theorem Yaml.Regular.text {depth : Nat} {text : String}
    (h : (text.toList.all fun c => !Text.isBlank c) = true) : Regular depth (.string text) :=
  .string (unbroken_of_all h)

namespace Schema

/-! ### Schemas -/

theorem regular_typeJson {name : String} (hname : Unbroken name.toList) (nullable : Bool) :
    Regular 1 (typeJson name nullable) := by
  cases nullable with
  | false => exact .string hname
  | true =>
    refine .array (List.forall_mem_cons.2 ⟨.string hname, List.forall_mem_singleton.2 ?_⟩)
    exact .text (by decide)

theorem regular_scalar (kind : ScalarKind) (nullable : Bool) :
    Regular 2 (scalar kind nullable).toJson := by
  have htype : Regular 1 (typeJson kind.schemaType nullable) := by
    refine regular_typeJson (unbroken_of_all ?_) nullable
    cases kind <;> decide
  rw [toJson]
  cases hformat : kind.format? with
  | none =>
    exact .record ["type"] rfl (by decide) (List.forall_mem_singleton.2 htype)
  | some format =>
    have htext : Regular 1 (.string format) := by
      cases kind <;> cases hformat
      exact .text (by decide)
    exact .record ["type", "format"] rfl (by decide)
      (List.forall_mem_cons.2 ⟨htype, List.forall_mem_singleton.2 htext⟩)

theorem regular_reference {model : String} (h : Unbroken model.toList) :
    Regular 1 (reference model).toJson := by
  have hpath : Unbroken (referencePath model).toList := by
    rw [referencePath, String.toList_append]
    exact List.forall_mem_append.2 ⟨unbroken_of_all (by decide), h⟩
  rw [toJson]
  exact .record ["$ref"] rfl (by decide) (List.forall_mem_singleton.2 (.string hpath))

theorem regular_array {items : Schema} {depth : Nat} (h : Regular (depth + 1) items.toJson)
    (nullable : Bool) : Regular (depth + 2) (array items nullable).toJson := by
  have htype : Regular (depth + 1) (typeJson "array" nullable) :=
    (regular_typeJson (unbroken_of_all (by decide)) nullable).mono (Nat.le_add_left 1 depth)
  rw [toJson]
  exact .record ["type", "items"] rfl (by decide)
    (List.forall_mem_cons.2 ⟨htype, List.forall_mem_singleton.2 h⟩)

theorem regular_null {depth : Nat} : Regular (depth + 1) null.toJson := by
  rw [toJson]
  exact .record ["type"] rfl (by decide) (List.forall_mem_singleton.2 (.text (by decide)))

theorem regular_anyOf {alternatives : List Schema} {depth : Nat}
    (h : ∀ schema ∈ alternatives, Regular depth schema.toJson) :
    Regular (depth + 2) (anyOf alternatives).toJson := by
  rw [toJson, listJson_eq_map]
  exact .record ["anyOf"] rfl (by decide)
    (List.forall_mem_singleton.2 (.array (List.forall_mem_map.2 h)))

theorem regular_object {properties : List (String × Schema)} {required : List String} {depth : Nat}
    (hdistinct : (properties.map Prod.fst).Nodup)
    (hkeys : ∀ property ∈ properties, Unbroken property.1.toList)
    (hproperties : ∀ property ∈ properties, Regular depth property.2.toJson)
    (hrequired : ∀ name ∈ required, Unbroken name.toList) :
    Regular (depth + 2) (object properties required false).toJson := by
  have htype : Regular (depth + 1) (typeJson "object" false) := .text (by decide)
  have hentries : Regular (depth + 1) (.object (entriesJson properties)) := by
    rw [entriesJson_eq_map]
    refine .object ?_ (List.forall_mem_map.2 hkeys) (List.forall_mem_map.2 hproperties)
    rw [List.map_map]
    exact hdistinct
  rw [toJson, requiredEntry]
  cases hempty : required.isEmpty with
  | true =>
    exact .record ["type", "properties"] rfl (by decide)
      (List.forall_mem_cons.2 ⟨htype, List.forall_mem_singleton.2 hentries⟩)
  | false =>
    have hnames : Regular (depth + 1) (.array (required.map .string)) := by
      exact .array (List.forall_mem_map.2 fun name hname => .string (hrequired name hname))
    exact .record ["type", "properties", "required"] rfl (by decide)
      (List.forall_mem_cons.2 ⟨htype, List.forall_mem_cons.2
        ⟨hentries, List.forall_mem_singleton.2 hnames⟩⟩)

/-! ### Types -/

theorem regular_ofElement {token : List Char} {type : TypeRef} (h : ElementToken token type) :
    Regular 2 (ofType type).toJson ∧ Regular 3 (ofType type).orNull.toJson := by
  have hvisible := h.isIdentifier.isWord.visible
  cases h with
  | scalar kind =>
    exact ⟨regular_scalar kind false, (regular_scalar kind true).mono (Nat.le_succ 2)⟩
  | @model c rest hc hrest =>
    have hname : Unbroken (String.ofList (c :: rest)).toList := by
      rwa [String.toList_ofList]
    have hreference := regular_reference hname
    exact ⟨hreference.mono (Nat.le_succ 1), regular_anyOf (List.forall_mem_cons.2
      ⟨hreference, List.forall_mem_singleton.2 regular_null⟩)⟩

/-- The schema of a type that is written, with `null` added to it or not. -/
theorem regular_ofTypeToken {token : List Char} {type : TypeRef} (h : TypeToken token type) :
    Regular 3 (ofType type).toJson ∧ Regular 3 (ofType type).orNull.toJson := by
  cases h with
  | element h =>
    obtain ⟨hplain, hwidened⟩ := regular_ofElement h
    exact ⟨hplain.mono (Nat.le_succ 2), hwidened⟩
  | array _ h _ =>
    obtain ⟨hitems, -⟩ := regular_ofElement h
    exact ⟨regular_array hitems false, regular_array hitems true⟩

/-! ### Models -/

theorem regular_ofField {field : Field} (h : field.IsWritten) :
    Regular 3 (ofField field).toJson := by
  obtain ⟨token, htoken⟩ := h.type
  obtain ⟨hplain, hwidened⟩ := regular_ofTypeToken htoken
  rw [ofField]
  split
  · exact hwidened
  · exact hplain

/-- **The definition of a model** that can be declared is a regular value. -/
theorem regular_ofModel {model : Model} (h : model.IsWritten) :
    Regular 5 (ofModel model).toJson := by
  have hnames : ∀ field ∈ model.fields, Unbroken field.name.toList :=
    fun field hfield => (h.fields field hfield).name.isWord.visible
  rw [ofModel_of_nodup h.fieldNames]
  refine regular_object ?_ ?_ ?_ ?_
  · rw [List.map_map]
    exact h.fieldNames
  · exact List.forall_mem_map.2 hnames
  · exact List.forall_mem_map.2 fun field hfield => regular_ofField (h.fields field hfield)
  · rw [Model.requiredNames]
    exact List.forall_mem_map.2 fun field hfield => hnames field (List.mem_of_mem_filter hfield)

end Schema

end ApiShorthand
