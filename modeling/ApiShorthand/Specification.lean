import ApiShorthand.Model
import ApiShorthand.Endpoint

/-!
# Specifications

A specification is what both source texts declare, with the options of the run. Building one reads
the texts, checks that every model that is used is declared, adds the default fields, and marks
the fields that may be null.
-/

namespace ApiShorthand

/-- The switches of a run. -/
structure Options where
  /-- Whether every model gets the default fields. -/
  addDefaults : Bool := true
  /-- Whether `null` is a value of every field that is not required. -/
  addNulls : Bool := false
deriving DecidableEq, Repr

/-! ### Default fields -/

namespace Field

/-- A field that no line declares. -/
def synthetic (name : String) (kind : ScalarKind) (required : Bool) : Field :=
  { name, line := 0, type := .scalar kind, required, nullable := false }

/-- The fields that every model gets. -/
def defaults : List Field :=
  [synthetic "id" .integer true, synthetic "created_at" .datetime false,
    synthetic "updated_at" .datetime false]

end Field

namespace Model

/-- The model with a field at its end, unless it has one of that name. -/
def addMissing (model : Model) (field : Field) : Model :=
  if (model.field? field.name).isSome then model
  else { model with fields := model.fields ++ [field] }

/-- The model with the default fields that it does not declare itself. -/
def withDefaults (model : Model) : Model :=
  Field.defaults.foldl addMissing model

/-- The model with the mark "may be null" on the fields that are not required, or on none. -/
def markNullable (addNulls : Bool) (model : Model) : Model :=
  { model with
    fields := model.fields.map fun field => { field with nullable := addNulls && !field.required } }

/-- The model with `null` a value of all of its fields, or of none. -/
def setNullable (value : Bool) (model : Model) : Model :=
  { model with fields := model.fields.map fun field => { field with nullable := value } }

/-- The model as the options want it. -/
def complete (options : Options) (model : Model) : Model :=
  (if options.addDefaults then model.withDefaults else model).markNullable options.addNulls

end Model

/-! ### References -/

/-- The types that are written in models and endpoints: all fields in order, then for each
endpoint the request and the response. -/
def writtenTypes (models : ModelTable) (endpoints : List Endpoint) : List TypeRef :=
  (models.values.flatMap fun model => model.fields.map (·.type)) ++
    endpoints.flatMap fun endpoint => endpoint.request.toList ++ endpoint.response.toList

/-- Fails with the first name that is used as a model and is not in the table. -/
def checkReferences (models : ModelTable) (endpoints : List Endpoint) : Except Fault Unit :=
  match ((writtenTypes models endpoints).filterMap TypeRef.reference?).find? (· ∉ models.keys) with
  | some name => .error (.unresolvedReference name)
  | none => .ok ()

/-! ### Specifications -/

/-- The declarations of both source texts. -/
structure Specification where
  /-- The models. -/
  models : ModelTable
  /-- The endpoints. -/
  endpoints : List Endpoint
  /-- The switches with which they were read. -/
  options : Options
deriving DecidableEq, Repr

namespace Specification

/-- The specification without declarations. -/
def empty : Specification where
  models := []
  endpoints := []
  options := {}

/-- Reads both source texts. -/
def build (modelsText endpointsText : String) (options : Options) :
    Except Fault Specification := do
  let models ← ModelTable.ofString modelsText
  let endpoints ← Endpoint.readAll endpointsText
  checkReferences models endpoints
  return { models := models.mapValues (Model.complete options), endpoints, options }

/-! ### Editing -/

/-- The specification with the models of a text instead of its own, just as they are declared. -/
def replaceModels (specification : Specification) (text : String) :
    Except Fault Specification := do
  return { specification with models := ← ModelTable.ofString text }

/-- The specification with the models of a text besides its own, just as they are declared. A model
that it has already is replaced in its place. -/
def addModels (specification : Specification) (text : String) : Except Fault Specification := do
  return { specification with
    models := specification.models.insertAll (← ModelTable.ofString text) }

/-- The specification with the endpoints of a text instead of its own. -/
def replaceEndpoints (specification : Specification) (text : String) :
    Except Fault Specification := do
  return { specification with endpoints := ← Endpoint.readAll text }

/-- The specification with the endpoints of a text behind its own. -/
def addEndpoints (specification : Specification) (text : String) : Except Fault Specification := do
  return { specification with
    endpoints := specification.endpoints ++ (← Endpoint.readAll text) }

/-- The specification without a model. -/
def eraseModel (specification : Specification) (name : String) : Specification :=
  { specification with models := specification.models.erase name }

/-- The specification with a change to a model, if it has that model. -/
def modifyModel (specification : Specification) (name : String) (f : Model → Model) :
    Specification :=
  { specification with models := specification.models.modify name f }

end Specification

end ApiShorthand
