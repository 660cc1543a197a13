import ApiShorthand.Path
import ApiShorthand.TypeRef

/-!
# Endpoints

An endpoints text declares endpoints one after the other: a header line with a method and a path,
then at most one line for the request body and one, marked by an arrow, for the response.
-/

namespace ApiShorthand

/-- An endpoint. -/
structure Endpoint where
  /-- The method. -/
  method : Method
  /-- The path. -/
  path : String
  /-- The number of the line that declares it. -/
  line : Nat
  /-- The type of the request body, if there is one. -/
  request : Option TypeRef
  /-- The type of the response, or of its items, if there is one. -/
  response : Option TypeRef
  /-- Whether the response is an array. -/
  responseIsArray : Bool
deriving DecidableEq, Repr

namespace Endpoint

/-- The type behind the arrow of a response line. -/
def responseToken? : List Char → Option (List Char)
  | '=' :: '>' :: rest => some (Text.trimStart rest)
  | _ => none

/-- Reads a type token on a line. -/
def readType (line : Line) (token : List Char) : Except Fault TypeRef :=
  match TypeRef.read token with
  | .ok type => .ok type
  | .error problem => .error (line.fault problem)

/-- The endpoint with a response of a type: an array type gives its items. -/
def withResponse (endpoint : Endpoint) : TypeRef → Endpoint
  | .array item => { endpoint with response := some item, responseIsArray := true }
  | type => { endpoint with response := some type, responseIsArray := false }

/-- The endpoint with the body that a line declares. -/
def readBody (endpoint : Endpoint) (line : Line) : Except Fault Endpoint :=
  match responseToken? line.text.toList with
  | some token => do
    if endpoint.response.isSome then throw (line.fault .repeatedResponse)
    return endpoint.withResponse (← readType line token)
  | none => do
    if endpoint.request.isSome then throw (line.fault .repeatedRequest)
    return { endpoint with request := some (← readType line line.text.toList) }

/-- The endpoint that a header line declares. -/
def readHeader (line : Line) : Except Fault Endpoint :=
  match Text.words line.text.toList with
  | [] => .error (line.fault .methodExpected)
  | token :: others =>
    match Method.ofWord? token with
    | none => .error (.unknownMethod (String.ofList token))
    | some method =>
      match others with
      | [path] =>
        if Path.isPath path then
          .ok { method, path := String.ofList path, line := line.number, request := none,
                response := none, responseIsArray := false }
        else .error (line.fault (.invalidPath (String.ofList path)))
      | _ => .error (line.fault .endpointHeaderExpected)

/-- Whether two endpoints have one method and path. -/
def sameOperation (a b : Endpoint) : Bool :=
  a.method == b.method && a.path == b.path

/-- The endpoints declared so far, last one first, with what a line adds to them. -/
def readLine (endpoints : List Endpoint) (line : Line) : Except Fault (List Endpoint) := do
  if line.depth > 1 then throw (line.fault .nestedLine)
  if line.kind = .header then
    let endpoint ← readHeader line
    if endpoints.any endpoint.sameOperation then
      throw (.duplicateEndpoint endpoint.method endpoint.path)
    return endpoint :: endpoints
  else
    match endpoints with
    | [] => throw (line.fault .bodyOutsideEndpoint)
    | endpoint :: earlier => return (← endpoint.readBody line) :: earlier

/-- The endpoints declared so far, last one first, with what an item of a text adds to them. -/
def readItem (endpoints : List Endpoint) (item : Except Fault Line) :
    Except Fault (List Endpoint) := do
  readLine endpoints (← item)

/-- Reads an endpoints text; the endpoints stand in text order. -/
def readAll (text : String) : Except Fault (List Endpoint) := do
  return (← (tokenize text).foldlM readItem []).reverse

end Endpoint

end ApiShorthand
