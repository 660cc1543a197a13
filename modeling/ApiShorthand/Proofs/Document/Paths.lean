import ApiShorthand.Document
import ApiShorthand.Proofs.Grammar.Endpoints
import ApiShorthand.Proofs.Table

/-!
# Correctness of `pathsOf`

The paths of endpoints are emitted exactly if no two endpoints share both method and path, and are
then the endpoints grouped by path: the paths in the order in which they first appear, and under
each the operations of its endpoints in order (`pathsOf_eq_ok_iff`).
-/

namespace ApiShorthand

namespace Endpoint

/-- The paths of endpoints, each where it first appears. -/
def pathOrder (endpoints : List Endpoint) : List String :=
  (endpoints.map (·.path)).eraseDups

/-- The endpoints of a path, in order. -/
def atPath (endpoints : List Endpoint) (path : String) : List Endpoint :=
  endpoints.filter (·.path = path)

theorem mem_pathOrder {endpoints : List Endpoint} {path : String} :
    path ∈ pathOrder endpoints ↔ ∃ endpoint ∈ endpoints, endpoint.path = path := by
  rw [pathOrder, List.mem_eraseDups, List.mem_map]

theorem pathOrder_concat (endpoints : List Endpoint) (endpoint : Endpoint) :
    pathOrder (endpoints ++ [endpoint]) =
      if endpoint.path ∈ pathOrder endpoints then pathOrder endpoints
      else pathOrder endpoints ++ [endpoint.path] := by
  have hmem : endpoint.path ∈ pathOrder endpoints ↔ endpoint.path ∈ endpoints.map (·.path) :=
    List.mem_eraseDups
  rw [pathOrder, List.map_append, List.map_singleton, List.eraseDups_append, List.removeAll]
  by_cases h : endpoint.path ∈ pathOrder endpoints
  -- a path that is known is removed from what is added
  · rw [if_pos h, List.filter_cons_of_neg (by simpa using hmem.1 h), List.filter_nil,
      List.eraseDups_nil, List.append_nil, pathOrder]
  · rw [if_neg h, List.filter_cons_of_pos (by simpa using hmem.not.1 h), List.filter_nil,
      List.eraseDups_cons, List.filter_nil, List.eraseDups_nil, pathOrder]

theorem nodup_pathOrder (endpoints : List Endpoint) : (pathOrder endpoints).Nodup := by
  induction endpoints using List.reverseRecOn with
  | nil => exact List.nodup_nil
  | append_singleton endpoints endpoint ih =>
    rw [pathOrder_concat]
    split
    · exact ih
    · rename_i hnew
      rw [← List.concat_eq_append, List.nodup_concat]
      exact ⟨hnew, ih⟩

theorem atPath_concat (endpoints : List Endpoint) (endpoint : Endpoint) (path : String) :
    atPath (endpoints ++ [endpoint]) path =
      if path = endpoint.path then atPath endpoints path ++ [endpoint]
      else atPath endpoints path := by
  rw [atPath, List.filter_append]
  by_cases h : path = endpoint.path
  · rw [if_pos h, List.filter_cons_of_pos (by simpa using h.symm), List.filter_nil, atPath]
  · rw [if_neg h, List.filter_cons_of_neg (by simpa using Ne.symm h), List.filter_nil,
      List.append_nil, atPath]

theorem atPath_of_not_mem {endpoints : List Endpoint} {path : String}
    (h : path ∉ pathOrder endpoints) : atPath endpoints path = [] := by
  rw [atPath, List.filter_eq_nil_iff]
  intro endpoint hendpoint hpath
  exact h (mem_pathOrder.2 ⟨endpoint, hendpoint, by simpa using hpath⟩)

end Endpoint

namespace Document

open Endpoint

/-- The operations of the endpoints of a path, by method. -/
def itemOf (endpoints : List Endpoint) (path : String) : PathItem :=
  (atPath endpoints path).map fun endpoint => (endpoint.method.key, .ofEndpoint endpoint)

/-- The endpoints grouped by path. -/
def groupedPaths (endpoints : List Endpoint) : Table PathItem :=
  Table.tabulate (pathOrder endpoints) (itemOf endpoints)

theorem itemOf_concat (endpoints : List Endpoint) (endpoint : Endpoint) (path : String) :
    itemOf (endpoints ++ [endpoint]) path =
      if path = endpoint.path then
        itemOf endpoints path ++ [(endpoint.method.key, .ofEndpoint endpoint)]
      else itemOf endpoints path := by
  rw [itemOf, atPath_concat]
  by_cases h : path = endpoint.path
  · rw [if_pos h, if_pos h, List.map_append, List.map_singleton, itemOf]
  · rw [if_neg h, if_neg h, itemOf]

/-- A method is taken under a path exactly if an endpoint has both. -/
theorem mem_keys_itemOf {endpoints : List Endpoint} {endpoint : Endpoint} :
    endpoint.method.key ∈ (itemOf endpoints endpoint.path).keys ↔
      endpoint.operation ∈ endpoints.map operation := by
  rw [itemOf, Table.keys, List.map_map, List.mem_map, List.mem_map]
  refine exists_congr fun other => ?_
  rw [atPath, List.mem_filter, decide_eq_true_eq, operation, operation, Prod.mk.injEq, and_assoc]
  refine and_congr_right fun _ => ?_
  constructor
  · rintro ⟨hpath, hkey⟩
    exact ⟨Method.key_injective hkey, hpath⟩
  · rintro ⟨hmethod, hpath⟩
    exact ⟨hpath, congrArg Method.key hmethod⟩

/-- The operations that were found under the path of an endpoint. -/
theorem find?_groupedPaths (endpoints : List Endpoint) (path : String) :
    ((groupedPaths endpoints).find? path).getD [] = itemOf endpoints path := by
  by_cases h : path ∈ pathOrder endpoints
  · rw [groupedPaths, Table.find?_tabulate h, Option.getD_some]
  · rw [groupedPaths, Table.find?_eq_none (by rwa [Table.keys_tabulate]), Option.getD_none, itemOf,
      atPath_of_not_mem h, List.map_nil]

/-- One more endpoint goes to the end of its group. -/
theorem insert_groupedPaths {endpoints : List Endpoint} {endpoint : Endpoint}
    (hnew : endpoint.operation ∉ endpoints.map operation) :
    (groupedPaths endpoints).insert endpoint.path
        ((itemOf endpoints endpoint.path).insert endpoint.method.key (.ofEndpoint endpoint)) =
      groupedPaths (endpoints ++ [endpoint]) := by
  -- under its own path the method is new, so the operation goes to the end
  have hitem : ∀ path, itemOf (endpoints ++ [endpoint]) path =
      if path = endpoint.path then
        (itemOf endpoints endpoint.path).insert endpoint.method.key (.ofEndpoint endpoint)
      else itemOf endpoints path := by
    intro path
    rw [itemOf_concat, Table.insert_of_not_mem (mem_keys_itemOf.not.2 hnew)]
    split
    · rename_i hpath
      rw [hpath]
    · rfl
  rw [groupedPaths, groupedPaths, pathOrder_concat]
  by_cases h : endpoint.path ∈ pathOrder endpoints
  · rw [if_pos h, Table.insert_tabulate (nodup_pathOrder endpoints) h]
    exact Table.tabulate_congr fun path _ => (hitem path).symm
  · rw [if_neg h, Table.insert_tabulate_of_not_mem h]
    exact Table.tabulate_congr fun path _ => (hitem path).symm

/-- One step of the emitter. -/
theorem addEndpoint_groupedPaths_eq_ok_iff {endpoints : List Endpoint} {endpoint : Endpoint}
    {paths : Table PathItem} :
    addEndpoint (groupedPaths endpoints) endpoint = .ok paths ↔
      endpoint.operation ∉ endpoints.map operation ∧
        paths = groupedPaths (endpoints ++ [endpoint]) := by
  rw [addEndpoint, find?_groupedPaths]
  by_cases h : endpoint.operation ∈ endpoints.map operation
  · rw [if_pos (mem_keys_itemOf.2 h)]
    exact iff_of_false nofun fun hnew => hnew.1 h
  · rw [if_neg (mem_keys_itemOf.not.2 h), insert_groupedPaths h]
    constructor
    · intro hok
      cases hok
      exact ⟨h, rfl⟩
    · rintro ⟨-, rfl⟩
      rfl

theorem pathsOf_concat (endpoints : List Endpoint) (endpoint : Endpoint) :
    pathsOf (endpoints ++ [endpoint]) =
      pathsOf endpoints >>= fun paths => addEndpoint paths endpoint := by
  simp only [pathsOf, List.foldlM_append, List.foldlM_cons, List.foldlM_nil, bind_pure]

/-- **The paths of endpoints** are the endpoints grouped by path; they are refused exactly if two
endpoints share an operation. -/
theorem pathsOf_eq_ok_iff {endpoints : List Endpoint} {paths : Table PathItem} :
    pathsOf endpoints = .ok paths ↔
      (endpoints.map operation).Nodup ∧ paths = groupedPaths endpoints := by
  -- the emitter takes the endpoints from the left, so the induction is at the right end
  induction endpoints using List.reverseRecOn generalizing paths with
  | nil =>
    constructor
    · intro h
      cases h
      exact ⟨List.nodup_nil, rfl⟩
    · rintro ⟨-, rfl⟩
      rfl
  | append_singleton endpoints endpoint ih =>
    rw [pathsOf_concat, Except.bind_eq_ok_iff, List.map_append, List.map_singleton,
      ← List.concat_eq_append, List.nodup_concat]
    constructor
    · rintro ⟨before, hbefore, hadd⟩
      obtain ⟨hnodup, rfl⟩ := ih.1 hbefore
      obtain ⟨hnew, rfl⟩ := addEndpoint_groupedPaths_eq_ok_iff.1 hadd
      exact ⟨⟨hnew, hnodup⟩, rfl⟩
    · rintro ⟨⟨hnew, hnodup⟩, rfl⟩
      exact ⟨groupedPaths endpoints, ih.2 ⟨hnodup, rfl⟩,
        addEndpoint_groupedPaths_eq_ok_iff.2 ⟨hnew, rfl⟩⟩

end Document

end ApiShorthand
