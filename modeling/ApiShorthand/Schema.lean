import ApiShorthand.Json.Basic
import ApiShorthand.Model

/-!
# Schemas

The schemas that describe data in a document, how types and models give them, how a schema is
widened by `null`, and their form as JSON.
-/

namespace ApiShorthand

/-- A schema. The mark `nullable` stands for a `type` that is paired with `"null"`. -/
inductive Schema where
  /-- A scalar of a kind. -/
  | scalar (kind : ScalarKind) (nullable : Bool)
  /-- An array of items of one schema. -/
  | array (items : Schema) (nullable : Bool)
  /-- An object with named properties, of which some are required. -/
  | object (properties : List (String × Schema)) (required : List String) (nullable : Bool)
  /-- The definition of a model. -/
  | reference (model : String)
  /-- Only `null`. -/
  | null
  /-- One of several schemas at least. -/
  | anyOf (alternatives : List Schema)

namespace Schema

/-- The schema of a type. A model is referred to by its name. -/
def ofType : TypeRef → Schema
  | .scalar kind => scalar kind false
  | .model name => reference name
  | .array item => array (ofType item) false

/-- The schema of arrays with items of this schema. -/
def arrayOf (items : Schema) : Schema :=
  array items false

/-- The schema widened by `null`: in the `type` where there is one, else as an alternative. Only the
schemas of types are widened, and `null` is none of them: it is made here, as an alternative, and
nowhere else. -/
def orNull : Schema → Schema
  | scalar kind _ => scalar kind true
  | array items _ => array items true
  | object properties required _ => object properties required true
  | null => null
  | reference model => anyOf [reference model, null]
  | anyOf alternatives => anyOf [anyOf alternatives, null]

/-- The schema of a field. -/
def ofField (field : Field) : Schema :=
  if field.nullable then (ofType field.type).orNull else ofType field.type

/-- The definition of a model. -/
def ofModel (model : Model) : Schema :=
  object (Table.ofList (model.fields.map fun field => (field.name, ofField field)))
    ((model.fields.filter (·.required)).map (·.name)) false

/-! ### JSON form -/

/-- The path that refers to the definition of a model. -/
def referencePath (model : String) : String :=
  "#/definitions/" ++ model

/-- A `type`, alone or paired with `"null"`. -/
def typeJson (name : String) (nullable : Bool) : Json :=
  if nullable then .array [.string name, .string "null"] else .string name

/-- The entry `required`, left out if nothing is required. -/
def requiredEntry (names : List String) : List (String × Json) :=
  if names.isEmpty then [] else [("required", .array (names.map .string))]

mutual

/-- The JSON form of a schema. -/
def toJson : Schema → Json
  | scalar kind nullable =>
    .object (("type", typeJson kind.schemaType nullable) ::
      kind.format?.toList.map fun format => ("format", .string format))
  | array items nullable =>
    .object [("type", typeJson "array" nullable), ("items", toJson items)]
  | object properties required nullable =>
    .object (("type", typeJson "object" nullable) ::
      ("properties", .object (entriesJson properties)) :: requiredEntry required)
  | reference model => .object [("$ref", .string (referencePath model))]
  | null => .object [("type", .string "null")]
  | anyOf alternatives => .object [("anyOf", .array (listJson alternatives))]

/-- The JSON forms of schemas in order. -/
def listJson : List Schema → List Json
  | [] => []
  | schema :: rest => toJson schema :: listJson rest

/-- The JSON forms of schemas under their keys. -/
def entriesJson : List (String × Schema) → List (String × Json)
  | [] => []
  | (key, schema) :: rest => (key, toJson schema) :: entriesJson rest

end

/-! ### Laws -/

@[simp] theorem ofType_scalar {kind : ScalarKind} : ofType (.scalar kind) = scalar kind false := rfl

@[simp] theorem ofType_model {name : String} : ofType (.model name) = reference name := rfl

@[simp] theorem ofType_array {item : TypeRef} :
    ofType (.array item) = array (ofType item) false := rfl

theorem listJson_eq_map (schemas : List Schema) : listJson schemas = schemas.map toJson := by
  induction schemas with
  | nil => rfl
  | cons schema rest ih => simp [listJson, ih]

theorem entriesJson_eq_map (entries : List (String × Schema)) :
    entriesJson entries = entries.map fun entry => (entry.1, toJson entry.2) := by
  induction entries with
  | nil => rfl
  | cons entry rest ih => simp [entriesJson, ih]

end Schema

end ApiShorthand
