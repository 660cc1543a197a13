import ApiShorthand.Proofs.Document.Options
import ApiShorthand.Proofs.Grammar.Placeholder
import ApiShorthand.Proofs.Specification.Written

/-!
# The parameters of operations

Every operation of a compiled document lists its parameters as the path and the endpoint say: one
for each placeholder of the path, in order, and then one for the request body if there is one. As
the names of a path are told apart, so are the parameters, also where a placeholder is called
`body` (`parameters_match_path`).
-/

namespace ApiShorthand

open Grammar ApiShorthand.Path

/-! ### Lists of parameters -/

namespace Json

/-- The value under a key of an object. -/
def member? (key : String) : Json → Option Json
  | object entries => Table.find? key entries
  | _ => none

/-- The parameters that an operation lists; it lists none if it has no such key. -/
def listedParameters (operation : Json) : List Json :=
  match operation.member? "parameters" with
  | some (array items) => items
  | _ => []

/-- Two parameters have one name in one place. -/
def SameParameter (a b : Json) : Prop :=
  a.member? "name" = b.member? "name" ∧ a.member? "in" = b.member? "in"

/-- The parameter of a placeholder: a required text in the path. -/
def pathParameter (name : String) : Json :=
  object [("name", string name), ("in", string "path"), ("required", bool true),
    ("type", string "string")]

/-- The parameter of a request: the body, of a type. -/
def bodyParameter (type : TypeRef) : Json :=
  object [("name", string "body"), ("in", string "body"), ("required", bool true),
    ("schema", (Schema.ofType type).toJson)]

theorem pathParameter_injective {a b : String} (h : SameParameter (pathParameter a)
    (pathParameter b)) : a = b :=
  string.inj (Option.some.inj h.1)

/-- A place tells the parameter of a placeholder from that of a request. -/
theorem not_sameParameter_path_body (name : String) (type : TypeRef) :
    ¬ SameParameter (pathParameter name) (bodyParameter type) := by
  rintro ⟨-, hplace⟩
  have hnames := string.inj (Option.some.inj hplace)
  exact absurd hnames (by decide)

/-- Parameters for different names and at most one body are told apart. -/
theorem pairwise_not_sameParameter {names : List String} (h : names.Nodup)
    (request : Option TypeRef) :
    (names.map pathParameter ++ request.toList.map bodyParameter).Pairwise
      fun a b => ¬ SameParameter a b := by
  refine List.pairwise_append.2 ⟨?_, ?_, ?_⟩
  · rw [List.pairwise_map]
    exact h.imp fun hne hsame => hne (pathParameter_injective hsame)
  · cases request with
    | none => exact .nil
    | some type => exact List.pairwise_singleton _ _
  · intro a ha b hb
    obtain ⟨name, -, rfl⟩ := List.mem_map.1 ha
    obtain ⟨type, -, rfl⟩ := List.mem_map.1 hb
    exact not_sameParameter_path_body name type

end Json

open Json

/-- An operation lists its parameters, as far as it has any. -/
theorem Operation.listedParameters_toJson (operation : Operation) :
    operation.toJson.listedParameters = operation.parameters.map Parameter.toJson := by
  rw [toJson]
  cases hempty : operation.parameters.isEmpty with
  | true =>
    rw [List.isEmpty_iff.1 hempty]
    rfl
  | false => rfl

/-- The operation of an endpoint lists what its path and its request say. -/
theorem Operation.listedParameters_ofEndpoint (endpoint : Endpoint) :
    (ofEndpoint endpoint).toJson.listedParameters =
      (Path.parameters endpoint.path).map pathParameter ++
        endpoint.request.toList.map bodyParameter := by
  rw [listedParameters_toJson, ofEndpoint, List.map_append, List.map_map, List.map_map]
  rfl

/-! ### Paths of endpoints -/

/-- The reader takes nothing else for a path. -/
theorem Endpoint.isPath_of_readAll {text : String} {endpoints : List Endpoint}
    (h : readAll text = .ok endpoints) {endpoint : Endpoint} (hendpoint : endpoint ∈ endpoints) :
    isPath endpoint.path.toList = true :=
  isPath_iff.2 (isWritten_of_readAll h endpoint hendpoint).path

/-- An operation of grouped endpoints is that of the one endpoint with its path and method. -/
theorem Document.exists_endpoint_of_mem_groupedPaths {endpoints : List Endpoint}
    (hdistinct : (endpoints.map Endpoint.operation).Nodup) {path key : String} {item : PathItem}
    {operation : Operation} (hitem : (path, item) ∈ groupedPaths endpoints)
    (hoperation : (key, operation) ∈ item) :
    ∃ endpoint ∈ endpoints, endpoint.path = path ∧ endpoint.method.key = key ∧
      (∀ other ∈ endpoints, other.path = path → other.method.key = key → other = endpoint) ∧
      operation = .ofEndpoint endpoint := by
  obtain ⟨path', -, heq⟩ := List.mem_map.1 hitem
  cases heq
  obtain ⟨endpoint, hendpoint, heq⟩ := List.mem_map.1 hoperation
  cases heq
  rw [Endpoint.atPath, List.mem_filter, decide_eq_true_eq] at hendpoint
  obtain ⟨hmem, rfl⟩ := hendpoint
  refine ⟨endpoint, hmem, rfl, rfl, fun other hother hpath hmethod => ?_, rfl⟩
  refine List.inj_on_of_nodup_map hdistinct hother hmem ?_
  rw [Endpoint.operation, Endpoint.operation, hpath, Method.key_injective hmethod]

/-! ### Parameters and paths -/

/-- The names of the placeholders among the parts of a path, each where it stands first. -/
def Path.placeholderNames (parts : List Part) : List String :=
  ((parts.filterMap Part.name?).eraseDups).map String.ofList

/-- **The parameters match the path.** In any text the names are found that stand between braces,
each once, and in the order in which they first occur. A path is cut into parts in one way, its
braces are those of its placeholders, and the names are theirs. In a compiled document every
operation belongs to one endpoint, and lists a parameter for each different placeholder of its path
in order, and then one for the body exactly if the endpoint has a request; no two of them have one
name in one place. -/
theorem parameters_match_path :
    (∀ path, (Path.parameters path).Nodup ∧
      (∀ name : String, name ∈ Path.parameters path ↔
        IsBracedName name.toList ∧ braced name.toList <:+: path.toList) ∧
      (Path.parameters path).Pairwise fun a b => ∃ i j, IsFirstAt (braced a.toList) path.toList i ∧
        IsFirstAt (braced b.toList) path.toList j ∧ i < j) ∧
    (∀ path : String, isPath path.toList = true → ∃ parts, IsSplit parts path.toList ∧
      (∀ others, IsSplit others path.toList → others = parts) ∧
      (∀ part ∈ parts, '{' ∈ part.text ∨ '}' ∈ part.text →
        ∃ name hne hname, part = .placeholder name hne hname) ∧
      Path.parameters path = placeholderNames parts) ∧
    ∀ modelsText endpointsText options document,
      compile modelsText endpointsText options = .ok document →
      ∃ endpoints, Endpoint.readAll endpointsText = .ok endpoints ∧
        ∀ path item, (path, item) ∈ document.paths → ∃ parts, IsSplit parts path.toList ∧
          ∀ key operation, (key, operation) ∈ item → ∃ endpoint ∈ endpoints,
            endpoint.path = path ∧ endpoint.method.key = key ∧
            (∀ other ∈ endpoints, other.path = path → other.method.key = key →
              other = endpoint) ∧
            operation.toJson.listedParameters =
              (placeholderNames parts).map pathParameter ++
                endpoint.request.toList.map bodyParameter ∧
            operation.toJson.listedParameters.Pairwise fun a b => ¬ SameParameter a b := by
  refine ⟨fun path => ?_, fun path hpath => ?_, ?_⟩
  · exact ⟨nodup_parameters path, fun name => mem_parameters_iff, pairwise_parameters path⟩
  · obtain ⟨parts, hparts⟩ := exists_isSplit_of_isPath hpath
    exact ⟨parts, hparts, fun others hothers => hparts.unique hothers,
      fun part _ => part.exists_placeholder, hparts.parameters_eq⟩
  · intro modelsText endpointsText options document hcompile
    obtain ⟨models, endpoints, -, hendpoints, -, rfl⟩ := compile_eq_ok_iff.1 hcompile
    have hdistinct := Endpoint.nodup_operation_of_readAll hendpoints
    refine ⟨endpoints, hendpoints, fun path item hitem => ?_⟩
    -- the path is that of an endpoint, which the reader took
    have hpath : isPath path.toList = true := by
      obtain ⟨path', hmem, heq⟩ := List.mem_map.1 hitem
      cases heq
      obtain ⟨endpoint, hendpoint, rfl⟩ := Endpoint.mem_pathOrder.1 hmem
      exact Endpoint.isPath_of_readAll hendpoints hendpoint
    obtain ⟨parts, hparts⟩ := exists_isSplit_of_isPath hpath
    refine ⟨parts, hparts, fun key operation hoperation => ?_⟩
    obtain ⟨endpoint, hmem, rfl, hkey, hunique, rfl⟩ :=
      Document.exists_endpoint_of_mem_groupedPaths hdistinct hitem hoperation
    have hlisted := Operation.listedParameters_ofEndpoint endpoint
    refine ⟨endpoint, hmem, rfl, hkey, hunique, ?_, ?_⟩
    · rw [hlisted, hparts.parameters_eq, placeholderNames]
    · rw [hlisted]
      exact pairwise_not_sameParameter (nodup_parameters endpoint.path) endpoint.request

/-- A placeholder that is called `body`, one that is repeated, and a request. -/
theorem parameters_match_path_body :
    isPath "/{a}{body}/{a}%2F".toList = true ∧
      (∃ parts, IsSplit parts "/{a}{body}/{a}%2F".toList ∧
        placeholderNames parts = ["a", "body"]) ∧
      ∃ document item operation, compile "" "PUT /{a}{body}/{a}%2F\n  string" {} = .ok document ∧
        ("/{a}{body}/{a}%2F", item) ∈ document.paths ∧ ("put", operation) ∈ item ∧
        operation.toJson.listedParameters =
          [pathParameter "a", pathParameter "body", bodyParameter (.scalar .string)] ∧
        operation.toJson.listedParameters.Pairwise fun a b => ¬ SameParameter a b := by
  obtain ⟨-, hsplit, hdocument⟩ := parameters_match_path
  have hnames : Path.parameters "/{a}{body}/{a}%2F" = ["a", "body"] := by decide +kernel
  have hpath : isPath "/{a}{body}/{a}%2F".toList = true := by decide +kernel
  obtain ⟨parts, hparts, -, -, hparameters⟩ := hsplit _ hpath
  rw [hnames] at hparameters
  have hbuild : Specification.build "" "PUT /{a}{body}/{a}%2F\n  string" {} = .ok
      ⟨[], [⟨.put, "/{a}{body}/{a}%2F", 1, some (.scalar .string), none, false⟩], {}⟩ := by
    decide +kernel
  have hcompile : compile "" "PUT /{a}{body}/{a}%2F\n  string" {} = .ok
      (.ofDeclarations {} []
        [⟨.put, "/{a}{body}/{a}%2F", 1, some (.scalar .string), none, false⟩]) := by
    rw [compile, hbuild]
    rfl
  have hread : Endpoint.readAll "PUT /{a}{body}/{a}%2F\n  string" = .ok
      [⟨.put, "/{a}{body}/{a}%2F", 1, some (.scalar .string), none, false⟩] := by
    decide +kernel
  obtain ⟨endpoints, hendpoints, hpaths⟩ := hdocument _ _ _ _ hcompile
  rw [hread] at hendpoints
  cases hendpoints
  obtain ⟨others, hothers, hoperations⟩ := hpaths _ _ List.mem_cons_self
  obtain ⟨endpoint, hmem, -, -, -, hlisted, hdistinct⟩ := hoperations _ _ List.mem_cons_self
  obtain rfl := List.mem_singleton.1 hmem
  rw [hparts.unique hothers, ← hparameters] at hlisted
  exact ⟨hpath, ⟨parts, hparts, hparameters.symm⟩, _, _, _, hcompile, List.mem_cons_self,
    List.mem_cons_self, hlisted, hdistinct⟩

end ApiShorthand
