import ApiShorthand.Json.Printer
import ApiShorthand.Schema
import ApiShorthand.Specification

/-!
# Documents

The two generated sections of a document: the operations under their paths and methods, and the
definitions of the models. `compile` makes them from both source texts.
-/

namespace ApiShorthand

/-- A parameter of an operation. -/
inductive Parameter where
  /-- A text in the path. -/
  | path (name : String)
  /-- The request body. -/
  | body (schema : Schema)

namespace Parameter

/-- The JSON form of a parameter. -/
def toJson : Parameter → Json
  | path name =>
    .object [("name", .string name), ("in", .string "path"), ("required", .bool true),
      ("type", .string "string")]
  | body schema =>
    .object [("name", .string "body"), ("in", .string "body"), ("required", .bool true),
      ("schema", schema.toJson)]

end Parameter

/-- What one method does under one path: its parameters, and the schema of its one response. -/
structure Operation where
  /-- The parameters in order. -/
  parameters : List Parameter
  /-- The schema of the response, if it has content. -/
  response : Option Schema

namespace Operation

/-- The schema of the response of an endpoint. -/
def responseSchema? (endpoint : Endpoint) : Option Schema :=
  endpoint.response.map fun type =>
    if endpoint.responseIsArray then (Schema.ofType type).arrayOf else Schema.ofType type

/-- The operation of an endpoint: a parameter for each placeholder of the path, then the body. -/
def ofEndpoint (endpoint : Endpoint) : Operation where
  parameters :=
    (Path.parameters endpoint.path).map .path ++
      endpoint.request.toList.map fun type => .body (Schema.ofType type)
  response := responseSchema? endpoint

/-- The JSON form of the response of success. -/
def responseJson (operation : Operation) : Json :=
  .object (("description", .string "OK") ::
    operation.response.toList.map fun schema => ("schema", schema.toJson))

/-- The JSON form of an operation; an empty list of parameters is left out. -/
def toJson (operation : Operation) : Json :=
  .object ((if operation.parameters.isEmpty then []
      else [("parameters", .array (operation.parameters.map Parameter.toJson))]) ++
    [("responses", .object [("200", operation.responseJson)])])

end Operation

/-- The operations under one path, by the lower-case names of their methods. -/
abbrev PathItem := Table Operation

/-- The generated sections of a document. -/
structure Document where
  /-- The operations under their paths. -/
  paths : Table PathItem
  /-- The definitions of the models. -/
  definitions : Table Schema

namespace Document

/-- The paths with the operation of one more endpoint, unless its method is taken there. -/
def addEndpoint (paths : Table PathItem) (endpoint : Endpoint) : Except Fault (Table PathItem) :=
  let item := (paths.find? endpoint.path).getD []
  if endpoint.method.key ∈ item.keys then
    .error (.duplicateEndpoint endpoint.method endpoint.path)
  else
    .ok (paths.insert endpoint.path (item.insert endpoint.method.key (.ofEndpoint endpoint)))

/-- The section `paths` of endpoints. -/
def pathsOf (endpoints : List Endpoint) : Except Fault (Table PathItem) :=
  endpoints.foldlM addEndpoint []

/-- The section `definitions` of models, each under its own name. -/
def definitionsOf (models : ModelTable) : Table Schema :=
  Table.ofList (models.values.map fun model => (model.name, Schema.ofModel model))

/-- The document of a specification. -/
def ofSpecification (specification : Specification) : Except Fault Document := do
  let paths ← pathsOf specification.endpoints
  return { paths, definitions := definitionsOf specification.models }

/-- The JSON form of the section `paths`. -/
def pathsJson (paths : Table PathItem) : Json :=
  .object (paths.mapValues fun item => .object (item.mapValues Operation.toJson))

/-- The JSON form of the section `definitions`. -/
def definitionsJson (definitions : Table Schema) : Json :=
  .object (definitions.mapValues Schema.toJson)

/-- The entries of the generated sections. -/
def sections (document : Document) : List (String × Json) :=
  [("paths", pathsJson document.paths), ("definitions", definitionsJson document.definitions)]

/-- The JSON form of a document without a header. -/
def toJson (document : Document) : Json :=
  .object document.sections

end Document

/-- The document of both source texts. -/
def compile (modelsText endpointsText : String) (options : Options) : Except Fault Document := do
  Document.ofSpecification (← Specification.build modelsText endpointsText options)

end ApiShorthand
