import ApiShorthand.Line
import ApiShorthand.Text.Identifier

/-!
# Types

The type of a field or a body: one of six scalar kinds, a model by its name, or an array. In a
source text a type is one token, in which brackets mark an array of a scalar or of a model.
-/

namespace ApiShorthand

/-- The scalar kinds. -/
inductive ScalarKind where
  /-- Text. -/
  | string
  /-- An integer. -/
  | integer
  /-- Any number. -/
  | number
  /-- A truth value. -/
  | boolean
  /-- An object of any shape. -/
  | object
  /-- A date with a time, in text form. -/
  | datetime
deriving DecidableEq, Repr

namespace ScalarKind

/-- All scalar kinds. -/
def all : List ScalarKind :=
  [string, integer, number, boolean, object, datetime]

/-- The word that stands for a kind in a source text. -/
def keyword : ScalarKind → String
  | string => "string"
  | integer => "integer"
  | number => "number"
  | boolean => "boolean"
  | object => "object"
  | datetime => "datetime"

/-- The `type` of a kind in a schema: a date with a time is a string. -/
def schemaType : ScalarKind → String
  | datetime => "string"
  | kind => kind.keyword

/-- The `format` of a kind in a schema, if it has one. -/
def format? : ScalarKind → Option String
  | datetime => some "date-time"
  | _ => none

/-- The kind that a word stands for. -/
def ofKeyword? (word : List Char) : Option ScalarKind :=
  all.find? fun kind => kind.keyword.toList == word

/-- A word stands for a kind exactly when it is that kind's keyword. -/
theorem ofKeyword?_eq_some_iff {word : List Char} {kind : ScalarKind} :
    ofKeyword? word = some kind ↔ word = kind.keyword.toList := by
  constructor
  · intro h
    have hp := List.find?_some h
    exact (beq_iff_eq.1 hp).symm
  · rintro rfl
    cases kind <;> decide

end ScalarKind

/-- A type. The notation has arrays of scalars and models only; deeper ones can be built. -/
inductive TypeRef where
  /-- A scalar. -/
  | scalar (kind : ScalarKind)
  /-- The model of this name. -/
  | model (name : String)
  /-- An array of items of one type. -/
  | array (item : TypeRef)
deriving DecidableEq, Repr

namespace TypeRef

/-- The name of the model that a type refers to, directly or through arrays. -/
def reference? : TypeRef → Option String
  | scalar _ => none
  | model name => some name
  | array item => item.reference?

/-- The text between brackets, without white space around it, if a token is bracketed. The text
may not run over a line feed. -/
def bracketed? : List Char → Option (List Char)
  | '[' :: rest =>
    if rest.getLast? = some ']' then
      let inner := Text.trim rest.dropLast
      if '\n' ∈ inner then none else some inner
    else none
  | _ => none

/-- Reads a scalar keyword or a model name. -/
def readElement (token : List Char) : Except LineProblem TypeRef :=
  if Text.isWordFrom Text.isLower token then
    match ScalarKind.ofKeyword? token with
    | some kind => .ok (scalar kind)
    | none => .error (.unknownScalar (String.ofList token))
  else if Text.isWordFrom Text.isUpper token then .ok (model (String.ofList token))
  else .error (.typeExpected (String.ofList token))

/-- Reads a type token. -/
def read (token : List Char) : Except LineProblem TypeRef :=
  match bracketed? token with
  | none => readElement token
  | some inner =>
    if inner.head? = some '[' then .error .nestedArray
    else (readElement inner).map array

@[simp] theorem reference?_scalar {kind : ScalarKind} : (scalar kind).reference? = none := rfl

@[simp] theorem reference?_model {name : String} : (model name).reference? = some name := rfl

@[simp] theorem reference?_array {item : TypeRef} :
    (array item).reference? = item.reference? := rfl

end TypeRef

end ApiShorthand
