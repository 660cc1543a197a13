import ApiShorthand.Proofs.Document.Resolution
import Mathlib.Data.List.Perm.Basic

/-!
# Grouping endpoints by path

`GroupsByPath endpoints paths` says without an algorithm what a table of paths is: the endpoints
grouped by path and in order, none of them lost or merged with another one. The emitter gives such a
table, or the fault of the first endpoint that repeats an operation.

The reader of endpoints looks for repetitions too, in another way. Both take one endpoint after the
other, and agree at every one (`readLine_agree_addEndpoint`). So the fault of the emitter is that of
lists which no text declares, and whatever can be built has a document (`pathsOf_spec`).
-/

namespace ApiShorthand

namespace Endpoint

/-- An endpoint is the first of a list with the method and path of an earlier one. -/
def IsFirstRepetition (endpoints : List Endpoint) (endpoint : Endpoint) : Prop :=
  ∃ before after, endpoints = before ++ endpoint :: after ∧ (before.map operation).Nodup ∧
    endpoint.operation ∈ before.map operation

theorem IsFirstRepetition.concat {endpoints : List Endpoint} {endpoint : Endpoint}
    (h : IsFirstRepetition endpoints endpoint) (last : Endpoint) :
    IsFirstRepetition (endpoints ++ [last]) endpoint := by
  obtain ⟨before, after, rfl, hnodup, hmem⟩ := h
  exact ⟨before, after ++ [last], by simp, hnodup, hmem⟩

/-- The methods tell the endpoints of a path apart. -/
theorem nodup_methods_atPath {endpoints : List Endpoint} (h : (endpoints.map operation).Nodup)
    (path : String) : ((atPath endpoints path).map (·.method.key)).Nodup := by
  have hpath : ∀ endpoint ∈ atPath endpoints path, endpoint ∈ endpoints ∧ endpoint.path = path := by
    intro endpoint hendpoint
    rwa [atPath, List.mem_filter, decide_eq_true_eq] at hendpoint
  refine List.Nodup.map_on (fun endpoint hendpoint other hother hkey => ?_) (h.of_map.filter _)
  obtain ⟨hmem, hat⟩ := hpath endpoint hendpoint
  obtain ⟨hmem', hat'⟩ := hpath other hother
  refine List.inj_on_of_nodup_map h hmem hmem' ?_
  rw [operation, operation, Method.key_injective hkey, hat, hat']

end Endpoint

/-- The groups of a list hold what the list holds. -/
theorem perm_flatMap_filter {α κ : Type} [DecidableEq κ] (f : α → κ) {keys : List κ}
    (hnodup : keys.Nodup) {items : List α} (h : ∀ item ∈ items, f item ∈ keys) :
    (keys.flatMap fun key => items.filter (f · = key)).Perm items := by
  induction keys generalizing items with
  | nil =>
    rw [List.eq_nil_iff_forall_not_mem.2 fun item hitem => List.not_mem_nil (h item hitem)]
    exact .refl []
  | cons key keys ih =>
    rw [List.nodup_cons] at hnodup
    -- the groups of the other keys are those of the items that are left
    have hgroups : (keys.flatMap fun other => items.filter (f · = other)) =
        keys.flatMap fun other => (items.filter (¬ f · = key)).filter (f · = other) := by
      refine List.flatMap_congr fun other hother => ?_
      rw [List.filter_filter]
      refine List.filter_congr fun item _ => ?_
      have hne : f item = other → ¬ f item = key := by
        rintro rfl rfl
        exact hnodup.1 hother
      simpa using hne
    have hrest : ∀ item ∈ items.filter (¬ f · = key), f item ∈ keys := by
      intro item hitem
      rw [List.mem_filter, decide_eq_true_eq] at hitem
      exact (List.mem_cons.1 (h item hitem.1)).resolve_left hitem.2
    rw [List.flatMap_cons, hgroups]
    refine ((ih hnodup.2 hrest).append_left _).trans ?_
    simpa using List.filter_append_perm (f · = key) items

namespace Document

open Endpoint

/-- The operations of a table of paths, each with its path and its method. -/
def operationsIn (paths : Table PathItem) : List (String × String × Operation) :=
  paths.flatMap fun entry => entry.2.map fun (key, operation) => (entry.1, key, operation)

/-- A table of paths holds the endpoints grouped by path. -/
structure GroupsByPath (endpoints : List Endpoint) (paths : Table PathItem) : Prop where
  /-- The keys are the paths of the endpoints, each where it first appears. -/
  keys_eq : paths.keys = (endpoints.map (·.path)).eraseDups
  /-- Under each path stand the operations of its endpoints, in order. -/
  item_eq : ∀ path item, (path, item) ∈ paths → item =
    (endpoints.filter (·.path = path)).map fun endpoint =>
      (endpoint.method.key, Operation.ofEndpoint endpoint)
  /-- No path is listed twice. -/
  nodup_keys : paths.keys.Nodup
  /-- No method is listed twice under a path. -/
  nodup_item : ∀ path item, (path, item) ∈ paths → item.keys.Nodup
  /-- Every endpoint has its operation there, and there are no others. -/
  perm : (operationsIn paths).Perm (endpoints.map fun endpoint =>
    (endpoint.path, endpoint.method.key, Operation.ofEndpoint endpoint))

/-! ### The table of paths -/

theorem operationsIn_groupedPaths (endpoints : List Endpoint) :
    operationsIn (groupedPaths endpoints) =
      ((pathOrder endpoints).flatMap (atPath endpoints)).map fun endpoint =>
        (endpoint.path, endpoint.method.key, Operation.ofEndpoint endpoint) := by
  rw [operationsIn, groupedPaths, Table.tabulate, List.flatMap_map, List.map_flatMap]
  refine List.flatMap_congr fun path _ => ?_
  rw [itemOf, List.map_map]
  refine List.map_congr_left fun endpoint hendpoint => ?_
  rw [atPath, List.mem_filter, decide_eq_true_eq] at hendpoint
  rw [hendpoint.2]
  rfl

theorem groupsByPath_groupedPaths {endpoints : List Endpoint}
    (h : (endpoints.map operation).Nodup) : GroupsByPath endpoints (groupedPaths endpoints) := by
  have hitem : ∀ path item, (path, item) ∈ groupedPaths endpoints →
      item = itemOf endpoints path := by
    intro path item hmem
    obtain ⟨other, -, heq⟩ := List.mem_map.1 hmem
    cases heq
    rfl
  refine ⟨Table.keys_tabulate _ _, hitem, ?_, fun path item hmem => ?_, ?_⟩
  · rw [groupedPaths, Table.keys_tabulate]
    exact nodup_pathOrder endpoints
  · rw [hitem path item hmem, itemOf, Table.keys, List.map_map]
    exact nodup_methods_atPath h path
  · rw [operationsIn_groupedPaths]
    exact (perm_flatMap_filter (·.path) (nodup_pathOrder endpoints) fun endpoint hendpoint =>
      mem_pathOrder.2 ⟨endpoint, hendpoint, rfl⟩).map _

/-! ### Repetitions -/

/-- What the emitter does to one more endpoint. -/
theorem addEndpoint_groupedPaths (endpoints : List Endpoint) (endpoint : Endpoint) :
    addEndpoint (groupedPaths endpoints) endpoint =
      if endpoint.operation ∈ endpoints.map operation then
        .error (.duplicateEndpoint endpoint.method endpoint.path)
      else .ok (groupedPaths (endpoints ++ [endpoint])) := by
  by_cases h : endpoint.operation ∈ endpoints.map operation
  · rw [if_pos h, addEndpoint, find?_groupedPaths]
    exact if_pos (mem_keys_itemOf.2 h)
  · rw [if_neg h]
    exact addEndpoint_groupedPaths_eq_ok_iff.2 ⟨h, rfl⟩

/-- **The fault of the emitter** is that of the first endpoint that repeats an operation. -/
theorem pathsOf_eq_error_iff {endpoints : List Endpoint} {fault : Fault} :
    pathsOf endpoints = .error fault ↔ ∃ endpoint, IsFirstRepetition endpoints endpoint ∧
      fault = .duplicateEndpoint endpoint.method endpoint.path := by
  constructor
  · intro h
    induction endpoints using List.reverseRecOn with
    | nil => cases h
    | append_singleton endpoints last ih =>
      rw [pathsOf_concat] at h
      cases hpaths : pathsOf endpoints with
      | error fault' =>
        rw [hpaths] at h
        cases h
        obtain ⟨endpoint, hfirst, rfl⟩ := ih hpaths
        exact ⟨endpoint, hfirst.concat last, rfl⟩
      | ok paths =>
        obtain ⟨hnodup, rfl⟩ := pathsOf_eq_ok_iff.1 hpaths
        have hlast : addEndpoint (groupedPaths endpoints) last = .error fault := by
          rwa [hpaths] at h
        rw [addEndpoint_groupedPaths] at hlast
        split_ifs at hlast with hmem
        cases hlast
        exact ⟨last, ⟨endpoints, [], rfl, hnodup, hmem⟩, rfl⟩
  · rintro ⟨endpoint, ⟨before, after, rfl, hnodup, hmem⟩, rfl⟩
    have hbefore : before.foldlM addEndpoint [] = .ok (groupedPaths before) :=
      pathsOf_eq_ok_iff.2 ⟨hnodup, rfl⟩
    rw [pathsOf, List.foldlM_append, hbefore]
    show (endpoint :: after).foldlM addEndpoint (groupedPaths before) = _
    rw [List.foldlM_cons, addEndpoint_groupedPaths, if_pos hmem]
    rfl

/-- The reader of endpoints and the emitter agree on every header: they refuse it with one fault, or
what the emitter goes on with are the paths of what the reader goes on with. -/
theorem readLine_agree_addEndpoint {earlier : List Endpoint} {paths : Table PathItem}
    {line : Line} {endpoint : Endpoint} (hpaths : pathsOf earlier.reverse = .ok paths)
    (hdepth : line.depth ≤ 1) (hkind : line.kind = .header)
    (hheader : readHeader line = .ok endpoint) :
    Except.Agree (fun endpoints paths' => pathsOf endpoints.reverse = .ok paths')
      (readLine earlier line) (addEndpoint paths endpoint) := by
  obtain ⟨hnodup, rfl⟩ := pathsOf_eq_ok_iff.1 hpaths
  rw [readLine_of_header earlier hdepth hkind, hheader, addEndpoint_groupedPaths]
  by_cases hmem : endpoint.operation ∈ earlier.map operation
  · have hmem' : endpoint.operation ∈ earlier.reverse.map operation := by simpa using hmem
    rw [if_pos hmem']
    dsimp only
    rw [if_pos (any_sameOperation_iff.2 hmem)]
    exact rfl
  · have hmem' : endpoint.operation ∉ earlier.reverse.map operation := by simpa using hmem
    rw [if_neg hmem']
    dsimp only
    rw [if_neg (any_sameOperation_iff.not.2 hmem)]
    show pathsOf (endpoint :: earlier).reverse = .ok (groupedPaths (earlier.reverse ++ [endpoint]))
    rw [List.reverse_cons]
    refine pathsOf_eq_ok_iff.2 ⟨?_, rfl⟩
    rw [List.map_append, List.map_singleton, ← List.concat_eq_append, List.nodup_concat]
    exact ⟨hmem', hnodup⟩

/-- **Emitting paths.** A list of endpoints is refused exactly if two of them have one method and
path, and then for the first that repeats an earlier one; else its table of paths is the endpoints
grouped by path, under the names of their methods in lower case. The reader of endpoints refuses the
same lists with the same fault, so whatever is built from texts has a document, and building is all
that can fail in compiling. -/
theorem pathsOf_spec :
    (∀ method : Method, method.key = method.name.toLower) ∧
    (∀ endpoints : List Endpoint,
      ((∃ fault, pathsOf endpoints = .error fault) ↔
        ¬ (endpoints.map fun endpoint => (endpoint.method, endpoint.path)).Nodup) ∧
      (∀ fault, pathsOf endpoints = .error fault ↔ ∃ endpoint,
        IsFirstRepetition endpoints endpoint ∧
          fault = .duplicateEndpoint endpoint.method endpoint.path) ∧
      ∀ paths, pathsOf endpoints = .ok paths → GroupsByPath endpoints paths) ∧
    (∀ earlier paths line endpoint, pathsOf earlier.reverse = .ok paths → line.depth ≤ 1 →
      line.kind = .header → readHeader line = .ok endpoint →
        Except.Agree (fun endpoints paths' => pathsOf endpoints.reverse = .ok paths')
          (readLine earlier line) (addEndpoint paths endpoint)) ∧
    ∀ modelsText endpointsText options,
      (∀ specification, Specification.build modelsText endpointsText options = .ok specification →
        ∃ document, ofSpecification specification = .ok document) ∧
      ((∃ document, compile modelsText endpointsText options = .ok document) ↔
        ∃ specification,
          Specification.build modelsText endpointsText options = .ok specification) := by
  refine ⟨Method.key_eq_toLower,
    fun endpoints => ⟨?_, fun _ => pathsOf_eq_error_iff, fun paths hpaths => ?_⟩,
    fun _ _ _ _ => readLine_agree_addEndpoint, fun modelsText endpointsText options => ?_⟩
  · have hok : (∃ paths, pathsOf endpoints = .ok paths) ↔ (endpoints.map operation).Nodup :=
      ⟨fun ⟨_, hpaths⟩ => (pathsOf_eq_ok_iff.1 hpaths).1,
        fun hnodup => ⟨_, pathsOf_eq_ok_iff.2 ⟨hnodup, rfl⟩⟩⟩
    show _ ↔ ¬ (endpoints.map operation).Nodup
    rw [← hok]
    cases pathsOf endpoints <;> simp
  · obtain ⟨hnodup, rfl⟩ := pathsOf_eq_ok_iff.1 hpaths
    exact groupsByPath_groupedPaths hnodup
  · have hdocument : ∀ specification,
        Specification.build modelsText endpointsText options = .ok specification →
          ∃ document, ofSpecification specification = .ok document :=
      fun _ hbuild => ⟨_, ofSpecification_of_isWellFormed
        (Specification.isWellFormed_of_build hbuild)⟩
    refine ⟨hdocument, ⟨fun ⟨_, h⟩ => ?_, fun ⟨specification, hbuild⟩ => ?_⟩⟩
    · obtain ⟨specification, hbuild, -⟩ := Except.bind_eq_ok_iff.1 h
      exact ⟨specification, hbuild⟩
    · rw [compile_of_build hbuild]
      exact hdocument specification hbuild

/-- Endpoints of two paths in turn. -/
def mixedEndpoints : List Endpoint :=
  [⟨.get, "/a", 1, none, none, false⟩, ⟨.get, "/b", 2, none, none, false⟩,
    ⟨.put, "/a", 3, none, none, false⟩]

/-- Another `GET /a` would be the first repetition, and the reader refuses it as well. -/
theorem pathsOf_spec_mixedEndpoints :
    (∃ paths, pathsOf mixedEndpoints = .ok paths ∧ GroupsByPath mixedEndpoints paths) ∧
      pathsOf (mixedEndpoints ++ [⟨.get, "/a", 4, none, none, true⟩]) =
        .error (.duplicateEndpoint .get "/a") ∧
      readLine mixedEndpoints.reverse (.structural 4 0 "get /a".toList) =
        .error (.duplicateEndpoint .get "/a") ∧
      ∃ document, compile "" "GET /a\nGET /b\nPUT /a" {} = .ok document := by
  have hpaths : pathsOf mixedEndpoints.reverse.reverse = .ok (groupedPaths mixedEndpoints) := rfl
  have hheader : readHeader (.structural 4 0 "get /a".toList) =
      .ok ⟨.get, "/a", 4, none, none, false⟩ := by
    decide +kernel
  have hagree := pathsOf_spec.2.2.1 _ _ _ _ hpaths (by decide) rfl hheader
  have hbuild : Specification.build "" "GET /a\nGET /b\nPUT /a" {} =
      .ok ⟨[], mixedEndpoints, {}⟩ := by
    decide +kernel
  refine ⟨⟨_, rfl, (pathsOf_spec.2.1 mixedEndpoints).2.2 _ rfl⟩, ?_, ?_,
    (pathsOf_spec.2.2.2 _ _ _).2.2 ⟨_, hbuild⟩⟩
  · exact ((pathsOf_spec.2.1 _).2.1 _).2
      ⟨_, ⟨mixedEndpoints, [], rfl, by decide, by decide⟩, rfl⟩
  · cases hread : readLine mixedEndpoints.reverse (.structural 4 0 "get /a".toList) with
    | ok endpoints =>
      rw [hread] at hagree
      exact hagree.elim
    | error fault =>
      rw [hread] at hagree
      exact congrArg Except.error hagree

end Document

end ApiShorthand
