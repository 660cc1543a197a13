import ApiShorthand.Table
import ApiShorthand.TypeRef

/-!
# Models

A models text declares models one after the other: a header line with the name, then a line for
each field. `ModelTable.ofString` reads such a text; the models stand in the table in text order.
-/

namespace ApiShorthand

/-- A field of a model. -/
structure Field where
  /-- The name. -/
  name : String
  /-- The number of the line that declares it, or 0. -/
  line : Nat
  /-- The type. -/
  type : TypeRef
  /-- Whether every object has to have it. -/
  required : Bool
  /-- Whether `null` is a value of it. -/
  nullable : Bool
deriving DecidableEq, Repr

/-- A model. -/
structure Model where
  /-- The name. -/
  name : String
  /-- The number of the line that declares it. -/
  line : Nat
  /-- The fields in order. -/
  fields : List Field
deriving DecidableEq, Repr

/-- Models under their names. -/
abbrev ModelTable := Table Model

namespace Model

/-- The first field of a name. -/
def field? (model : Model) (name : String) : Option Field :=
  model.fields.find? (·.name == name)

/-! ### Lines of a models text -/

/-- The name in a model header: an identifier, white space, and a colon at the end. -/
def headerName? (text : List Char) : Option (List Char) := do
  let (name, rest) ← Text.takeName? text
  if Text.trimStart rest = [':'] then some name else none

/-- The parts of a field line. -/
structure FieldParts where
  /-- The name. -/
  name : List Char
  /-- Whether an asterisk follows the name. -/
  required : Bool
  /-- The text behind the colon. -/
  token : List Char
deriving DecidableEq, Repr

/-- Takes the asterisk off a text, if it starts with one. -/
def takeAsterisk : List Char → Bool × List Char
  | '*' :: rest => (true, rest)
  | text => (false, text)

/-- The text behind a colon, without white space at its start, if there is such a text. -/
def afterColon? : List Char → Option (List Char)
  | ':' :: rest =>
    match Text.trimStart rest with
    | [] => none
    | token => some token
  | _ => none

/-- The parts of a field line: an identifier, at once an asterisk or none, a colon and a text. -/
def fieldParts? (text : List Char) : Option FieldParts := do
  let (name, rest) ← Text.takeName? text
  let (required, rest) := takeAsterisk rest
  let token ← afterColon? (Text.trimStart rest)
  some { name, required, token }

/-- The model with the field that a line declares. -/
def readField (model : Model) (line : Line) : Except Fault Model := do
  let some parts := fieldParts? line.text.toList | throw (line.fault .fieldExpected)
  let name := String.ofList parts.name
  if (model.field? name).isSome then throw (line.fault (.repeatedField name model.name))
  match TypeRef.read parts.token with
  | .error problem => throw (line.fault problem)
  | .ok type =>
    let field : Field :=
      { name, line := line.number, type, required := parts.required, nullable := false }
    return { model with fields := model.fields ++ [field] }

/-- The models declared so far, last one first, with what a line adds to them. -/
def readLine (models : List Model) (line : Line) : Except Fault (List Model) := do
  if line.depth > 1 then throw (line.fault .nestedLine)
  if line.kind = .header then
    let some name := headerName? line.text.toList | throw (line.fault .modelHeaderExpected)
    let name := String.ofList name
    if models.any (·.name == name) then throw (.duplicateModel name)
    return { name, line := line.number, fields := [] } :: models
  else
    match models with
    | [] => throw (line.fault .fieldOutsideModel)
    | model :: earlier => return (← model.readField line) :: earlier

/-- The models declared so far, last one first, with what an item of a text adds to them. -/
def readItem (models : List Model) (item : Except Fault Line) : Except Fault (List Model) := do
  readLine models (← item)

/-- The models that a text declares, in text order. -/
def readAll (text : String) : Except Fault (List Model) := do
  return (← (tokenize text).foldlM readItem []).reverse

end Model

namespace ModelTable

/-- The table of models, each under its name. -/
def ofModels (models : List Model) : ModelTable :=
  models.map fun model => (model.name, model)

/-- Reads a models text. -/
def ofString (text : String) : Except Fault ModelTable := do
  return ofModels (← Model.readAll text)

end ModelTable

end ApiShorthand
