import ApiShorthand.Proofs.Schema.Injective

/-!
# The meaning of schemas

`Json.Accepts` is the usual meaning of a schema in its JSON form: a schema is an object, each of its
keywords is a condition on the value, and a value is accepted if it meets them all. What the formats
of texts mean, and which values a reference to a model stands for, are parameters.

From the keywords follows what each form of schema accepts (`accepts_scalar` to `accepts_anyOf`),
and from that the law of `orNull`: it accepts `null` and what was accepted before
(`accepts_orNull`), although it writes `null` in three ways.
-/

namespace ApiShorthand

namespace Json

/-- The names of the types that a value is of. A number with a point is no integer. -/
def typeNames : Json → List String
  | null => ["null"]
  | bool _ => ["boolean"]
  | int _ => ["integer", "number"]
  | float _ => ["number"]
  | string _ => ["string"]
  | array _ => ["array"]
  | object _ => ["object"]

theorem null_mem_typeNames_iff {value : Json} : "null" ∈ value.typeNames ↔ value = null := by
  cases value <;> simp [typeNames]

theorem array_mem_typeNames_iff {value : Json} :
    "array" ∈ value.typeNames ↔ ∃ items, value = array items := by
  cases value <;> simp [typeNames]

theorem object_mem_typeNames_iff {value : Json} :
    "object" ∈ value.typeNames ↔ ∃ entries, value = object entries := by
  cases value <;> simp [typeNames]

/-- What holds of a value if it holds of its items and of its entries holds of all values. -/
@[elab_as_elim]
theorem inductionOnParts {motive : Json → Prop}
    (step : ∀ value, (∀ items, value = array items → ∀ item ∈ items, motive item) →
      (∀ entries, value = object entries → ∀ entry ∈ entries, motive entry.2) → motive value)
    (value : Json) : motive value :=
  step value (fun _ _ item _ => inductionOnParts step item)
    fun _ _ entry _ => inductionOnParts step entry.2
termination_by sizeOf value
decreasing_by
  · subst value
    have := List.sizeOf_lt_of_mem ‹item ∈ _›
    simp only [Json.array.sizeOf_spec]
    omega
  · subst value
    have := List.sizeOf_lt_of_mem ‹entry ∈ _›
    have : sizeOf entry = 1 + sizeOf entry.1 + sizeOf entry.2 := rfl
    simp only [Json.object.sizeOf_spec]
    omega

/-! ### Keywords -/

section Keywords

variable (formats : String → String → Prop) (models : String → Json → Prop)

mutual

/-- A schema accepts a value if each of its keywords allows the value. -/
def Accepts : Json → Json → Prop
  | object keywords, value => Allow keywords value
  | _, _ => False

/-- Each keyword is a condition of its own. `format` is one on texts only, `items` on arrays, and
`properties` and `required` on objects; other keywords mean nothing. -/
def Allow : List (String × Json) → Json → Prop
  | [], _ => True
  | (keyword, argument) :: rest, value =>
    (match keyword, argument with
      | "$ref", string path => ∃ name, path = Schema.referencePath name ∧ models name value
      | "type", string name => name ∈ value.typeNames
      | "type", array names => ∃ name ∈ value.typeNames, string name ∈ names
      | "format", string format => ∀ text, value = string text → formats format text
      | "items", schema => ∀ items, value = array items → ∀ item ∈ items, Accepts schema item
      | "properties", object properties =>
        ∀ entries, value = object entries → AllowEntries properties entries
      | "required", array names =>
        ∀ entries, value = object entries →
          ∀ name, string name ∈ names → name ∈ Table.keys entries
      | "anyOf", array schemas => AcceptAny schemas value
      | _, _ => True) ∧
    Allow rest value

/-- Every entry under the name of a property is accepted by the schema of the property. -/
def AllowEntries : List (String × Json) → List (String × Json) → Prop
  | [], _ => True
  | (name, schema) :: rest, entries =>
    (∀ value, (name, value) ∈ entries → Accepts schema value) ∧ AllowEntries rest entries

/-- One of several schemas accepts a value. -/
def AcceptAny : List Json → Json → Prop
  | [], _ => False
  | schema :: rest, value => Accepts schema value ∨ AcceptAny rest value

end

end Keywords

variable {formats : String → String → Prop} {models : String → Json → Prop}

theorem allowEntries_iff {properties entries : List (String × Json)} :
    AllowEntries formats models properties entries ↔ ∀ property ∈ properties, ∀ value,
      (property.1, value) ∈ entries → Accepts formats models property.2 value := by
  induction properties with
  | nil => simp [AllowEntries]
  | cons property rest ih => rw [AllowEntries, ih, List.forall_mem_cons]

theorem acceptAny_iff {schemas : List Json} {value : Json} :
    AcceptAny formats models schemas value ↔
      ∃ schema ∈ schemas, Accepts formats models schema value := by
  induction schemas with
  | nil => simp [AcceptAny]
  | cons schema rest ih => simp [AcceptAny, ih]

theorem allow_type_cons {name : String} {nullable : Bool} {rest : List (String × Json)}
    {value : Json} :
    Allow formats models (("type", Schema.typeJson name nullable) :: rest) value ↔
      (name ∈ value.typeNames ∨ nullable = true ∧ value = null) ∧
        Allow formats models rest value := by
  cases nullable with
  | false => simp [Schema.typeJson, Allow]
  | true =>
    have hpair : (∃ n ∈ value.typeNames, string n ∈ [string name, string "null"]) ↔
        name ∈ value.typeNames ∨ value = null := by
      rw [← null_mem_typeNames_iff]
      constructor
      · rintro ⟨n, hn, hmem⟩
        simp only [List.mem_cons, string.injEq, List.not_mem_nil, or_false] at hmem
        rcases hmem with rfl | rfl
        · exact Or.inl hn
        · exact Or.inr hn
      · rintro (hn | hn)
        · exact ⟨name, hn, by simp⟩
        · exact ⟨"null", hn, by simp⟩
    simp only [Schema.typeJson, if_true, Allow, hpair, true_and]

end Json

namespace Schema

/-- What holds of schemas without parts, and of the others if it holds of their parts, holds of all
schemas. -/
@[elab_as_elim]
theorem inductionOnParts {motive : Schema → Prop}
    (scalar : ∀ kind nullable, motive (scalar kind nullable))
    (array : ∀ items nullable, motive items → motive (array items nullable))
    (object : ∀ properties required nullable, (∀ property ∈ properties, motive property.2) →
      motive (object properties required nullable))
    (reference : ∀ model, motive (reference model)) (null : motive null)
    (anyOf : ∀ alternatives, (∀ schema ∈ alternatives, motive schema) →
      motive (anyOf alternatives)) :
    ∀ schema, motive schema
  | .scalar kind nullable => scalar kind nullable
  | .array items nullable => array items nullable
    (inductionOnParts scalar array object reference null anyOf items)
  | .object properties required nullable => object properties required nullable
    fun property _ => inductionOnParts scalar array object reference null anyOf property.2
  | .reference model => reference model
  | .null => null
  | .anyOf alternatives => anyOf alternatives
    fun schema _ => inductionOnParts scalar array object reference null anyOf schema
termination_by schema => sizeOf schema
decreasing_by
  · simp only [Schema.array.sizeOf_spec]
    omega
  · have := List.sizeOf_lt_of_mem ‹property ∈ properties›
    have : sizeOf property = 1 + sizeOf property.1 + sizeOf property.2 := rfl
    simp only [Schema.object.sizeOf_spec]
    omega
  · have := List.sizeOf_lt_of_mem ‹schema ∈ alternatives›
    simp only [Schema.anyOf.sizeOf_spec]
    omega

/-- The JSON form of a schema accepts a value. -/
def Accepts (formats : String → String → Prop) (models : String → Json → Prop) (schema : Schema)
    (value : Json) : Prop :=
  schema.toJson.Accepts formats models value

variable {formats : String → String → Prop} {models : String → Json → Prop} {value : Json}

/-! ### One form of schema at a time -/

theorem accepts_scalar {kind : ScalarKind} {nullable : Bool} :
    Accepts formats models (scalar kind nullable) value ↔
      (kind.schemaType ∈ value.typeNames ∨ nullable = true ∧ value = .null) ∧
        ∀ format ∈ kind.format?, ∀ text, value = .string text → formats format text := by
  rw [Accepts, toJson, Json.Accepts, Json.allow_type_cons]
  cases kind.format? <;> simp [Json.Allow]

theorem accepts_array {items : Schema} {nullable : Bool} :
    Accepts formats models (array items nullable) value ↔
      (∃ values, value = .array values ∧ ∀ item ∈ values, Accepts formats models items item) ∨
        nullable = true ∧ value = .null := by
  rw [Accepts, toJson, Json.Accepts, Json.allow_type_cons, Json.array_mem_typeNames_iff]
  simp only [Json.Allow, and_true]
  constructor
  · rintro ⟨⟨values, rfl⟩ | hnull, hitems⟩
    · exact Or.inl ⟨values, rfl, hitems values rfl⟩
    · exact Or.inr hnull
  · rintro (⟨values, rfl, hitems⟩ | ⟨hnullable, rfl⟩)
    · refine ⟨Or.inl ⟨values, rfl⟩, fun values' heq => ?_⟩
      obtain rfl := Json.array.inj heq
      exact hitems
    · exact ⟨Or.inr ⟨hnullable, rfl⟩, by simp⟩

theorem allow_requiredEntry {names : List String} :
    Json.Allow formats models (requiredEntry names) value ↔
      ∀ entries, value = .object entries → ∀ name ∈ names, name ∈ Table.keys entries := by
  unfold requiredEntry
  cases names with
  | nil => simp [Json.Allow]
  | cons name names => simp [Json.Allow]

theorem accepts_object {properties : List (String × Schema)} {required : List String}
    {nullable : Bool} :
    Accepts formats models (object properties required nullable) value ↔
      (∃ entries, value = .object entries ∧
        (∀ property ∈ properties, ∀ part, (property.1, part) ∈ entries →
          Accepts formats models property.2 part) ∧
        ∀ name ∈ required, name ∈ Table.keys entries) ∨ nullable = true ∧ value = .null := by
  rw [Accepts, toJson, Json.Accepts, Json.allow_type_cons, Json.object_mem_typeNames_iff,
    entriesJson_eq_map]
  simp only [Json.Allow, Json.allowEntries_iff, allow_requiredEntry, List.forall_mem_map]
  constructor
  · rintro ⟨⟨entries, rfl⟩ | hnull, hproperties, hrequired⟩
    · exact Or.inl ⟨entries, rfl, hproperties entries rfl, hrequired entries rfl⟩
    · exact Or.inr hnull
  · rintro (⟨entries, rfl, hproperties, hrequired⟩ | ⟨hnullable, rfl⟩)
    · refine ⟨Or.inl ⟨entries, rfl⟩, fun entries' heq => ?_, fun entries' heq => ?_⟩
      · obtain rfl := Json.object.inj heq
        exact hproperties
      · obtain rfl := Json.object.inj heq
        exact hrequired
    · exact ⟨Or.inr ⟨hnullable, rfl⟩, by simp, by simp⟩

theorem accepts_reference {model : String} :
    Accepts formats models (reference model) value ↔ models model value := by
  rw [Accepts, toJson, Json.Accepts]
  simp only [Json.Allow, and_true]
  constructor
  · rintro ⟨name, hpath, h⟩
    rwa [referencePath_injective hpath]
  · intro h
    exact ⟨model, rfl, h⟩

theorem accepts_null : Accepts formats models null value ↔ value = .null := by
  rw [Accepts, toJson, Json.Accepts, ← Json.null_mem_typeNames_iff]
  simp only [Json.Allow, and_true]

theorem accepts_anyOf {alternatives : List Schema} :
    Accepts formats models (anyOf alternatives) value ↔
      ∃ schema ∈ alternatives, Accepts formats models schema value := by
  rw [Accepts, toJson, Json.Accepts, listJson_eq_map]
  simp only [Json.Allow, and_true, Json.acceptAny_iff, List.mem_map, exists_exists_and_eq_and]
  rfl

/-! ### Laws -/

/-- **Widening by `null`** accepts `null` besides, and nothing else. -/
theorem accepts_orNull {schema : Schema} :
    Accepts formats models schema.orNull value ↔
      Accepts formats models schema value ∨ value = .null := by
  -- in the `type`, where there is one
  have hmarked : ∀ (p : Prop) (nullable : Bool), (p ∨ true = true ∧ value = .null) ↔
      (p ∨ nullable = true ∧ value = .null) ∨ value = .null := by
    intro p nullable
    cases nullable <;> simp
  -- as an alternative, where there is none
  have hwidened : ∀ schema : Schema, Accepts formats models (anyOf [schema, null]) value ↔
      Accepts formats models schema value ∨ value = .null := by
    intro schema
    simp [accepts_anyOf, accepts_null]
  cases schema with
  | scalar kind nullable =>
    -- `null` is no text, so a format has nothing to say about it
    have hformat : value = .null →
        ∀ format ∈ kind.format?, ∀ text, value = .string text → formats format text := by
      rintro rfl format _ text htext
      cases htext
    rw [orNull, accepts_scalar, accepts_scalar, hmarked _ nullable, or_and_right,
      and_iff_left_of_imp hformat]
  | array items nullable => rw [orNull, accepts_array, accepts_array, hmarked _ nullable]
  | object properties required nullable =>
    rw [orNull, accepts_object, accepts_object, hmarked _ nullable]
  | reference model => exact hwidened (reference model)
  | null => simp [orNull, accepts_null]
  | anyOf alternatives => exact hwidened (anyOf alternatives)

/-- Where references stand for more values, every schema accepts more. -/
theorem Accepts.mono {models' : String → Json → Prop}
    (hmodels : ∀ name value, models name value → models' name value) {schema : Schema}
    (h : Accepts formats models schema value) : Accepts formats models' schema value := by
  induction schema using inductionOnParts generalizing value with
  | scalar kind nullable =>
    rw [accepts_scalar] at h ⊢
    exact h
  | array items nullable ih =>
    rw [accepts_array] at h ⊢
    refine h.imp_left ?_
    rintro ⟨values, rfl, hitems⟩
    exact ⟨values, rfl, fun item hitem => ih (hitems item hitem)⟩
  | object properties required nullable ih =>
    rw [accepts_object] at h ⊢
    refine h.imp_left ?_
    rintro ⟨entries, rfl, hproperties, hrequired⟩
    exact ⟨entries, rfl, fun property hproperty part hpart =>
      ih property hproperty (hproperties property hproperty part hpart), hrequired⟩
  | reference model =>
    rw [accepts_reference] at h ⊢
    exact hmodels model value h
  | null =>
    rw [accepts_null] at h ⊢
    exact h
  | anyOf alternatives ih =>
    rw [accepts_anyOf] at h ⊢
    obtain ⟨schema, hschema, haccepts⟩ := h
    exact ⟨schema, hschema, ih schema hschema haccepts⟩

end Schema

end ApiShorthand
