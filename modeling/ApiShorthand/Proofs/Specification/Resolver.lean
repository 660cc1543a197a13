import ApiShorthand.Specification
import Mathlib.Data.Option.Basic

/-!
# Correctness of `checkReferences`

A type refers to a model by its name, directly or through arrays. The check passes exactly if every
type that is written refers to declared models only (`checkReferences_eq_ok_iff`), and else reports
the first name that is not declared (`checkReferences_eq_error_iff`): fields come before endpoints,
and the request of an endpoint before its response.
-/

namespace ApiShorthand

namespace TypeRef

/-- A type is the model of a name, or an array of items that refer to it. -/
inductive RefersTo (name : String) : TypeRef → Prop where
  /-- The model itself. -/
  | model : RefersTo name (.model name)
  /-- An array. -/
  | array {item : TypeRef} (h : RefersTo name item) : RefersTo name (.array item)

theorem refersTo_iff {name : String} {type : TypeRef} :
    RefersTo name type ↔ type.reference? = some name := by
  constructor
  · intro h
    induction h with
    | model => rfl
    | array _ ih => exact ih
  · intro h
    induction type with
    | scalar kind => cases h
    | model other =>
      cases h
      exact .model
    | array item ih => exact .array (ih h)

/-- Whatever a type refers to is the name of a model. -/
def IsDeclared (models : ModelTable) (type : TypeRef) : Prop :=
  ∀ name, RefersTo name type → name ∈ models.keys

/-- The name that a type refers to, if no model has it. -/
def undeclared? (models : ModelTable) (type : TypeRef) : Option String :=
  type.reference?.filter (· ∉ models.keys)

theorem undeclared?_eq_some_iff {models : ModelTable} {type : TypeRef} {name : String} :
    undeclared? models type = some name ↔ RefersTo name type ∧ name ∉ models.keys := by
  rw [undeclared?, Option.filter_eq_some_iff, refersTo_iff, decide_eq_true_eq]

theorem undeclared?_eq_none_iff {models : ModelTable} {type : TypeRef} :
    undeclared? models type = none ↔ IsDeclared models type := by
  rw [Option.eq_none_iff_forall_ne_some]
  refine forall_congr' fun name => ?_
  rw [Ne, undeclared?_eq_some_iff, not_and_not_right]

end TypeRef

/-- Every field of a model refers to declared models only. -/
def Model.IsResolved (models : ModelTable) (model : Model) : Prop :=
  ∀ field ∈ model.fields, field.type.IsDeclared models

/-- The request and the response of an endpoint refer to declared models only. -/
def Endpoint.IsResolved (models : ModelTable) (endpoint : Endpoint) : Prop :=
  (∀ type, endpoint.request = some type → type.IsDeclared models) ∧
    ∀ type, endpoint.response = some type → type.IsDeclared models

/-- Some field, request or response refers to a name. -/
def Mentions (models : ModelTable) (endpoints : List Endpoint) (name : String) : Prop :=
  (∃ model ∈ models.values, ∃ field ∈ model.fields, field.type.RefersTo name) ∨
    ∃ endpoint ∈ endpoints, ∃ type,
      (endpoint.request = some type ∨ endpoint.response = some type) ∧ type.RefersTo name

/-- `name` is the first of the names that types refer to and no model has. -/
inductive FirstUndeclared (models : ModelTable) (endpoints : List Endpoint) (name : String) :
    Prop where
  /-- A field refers to it, and nothing is wrong with the models and the fields before. -/
  | field {before after : List Model} {model : Model} {fieldsBefore fieldsAfter : List Field}
      {field : Field} (hmodels : models.values = before ++ model :: after)
      (hbefore : ∀ other ∈ before, other.IsResolved models)
      (hfields : model.fields = fieldsBefore ++ field :: fieldsAfter)
      (hfieldsBefore : ∀ other ∈ fieldsBefore, other.type.IsDeclared models)
      (hname : field.type.RefersTo name) (hundeclared : name ∉ models.keys)
  /-- A request refers to it, and nothing is wrong with the models and the endpoints before. -/
  | request {before after : List Endpoint} {endpoint : Endpoint} {type : TypeRef}
      (hmodels : ∀ model ∈ models.values, model.IsResolved models)
      (hendpoints : endpoints = before ++ endpoint :: after)
      (hbefore : ∀ other ∈ before, other.IsResolved models)
      (htype : endpoint.request = some type)
      (hname : type.RefersTo name) (hundeclared : name ∉ models.keys)
  /-- A response refers to it, and nothing is wrong with what comes before. -/
  | response {before after : List Endpoint} {endpoint : Endpoint} {type : TypeRef}
      (hmodels : ∀ model ∈ models.values, model.IsResolved models)
      (hendpoints : endpoints = before ++ endpoint :: after)
      (hbefore : ∀ other ∈ before, other.IsResolved models)
      (hrequest : ∀ request, endpoint.request = some request → request.IsDeclared models)
      (htype : endpoint.response = some type)
      (hname : type.RefersTo name) (hundeclared : name ∉ models.keys)

/-! ### The first failure of a search -/

theorem findSome?_flatMap {α β γ : Type} (f : α → List β) (g : β → Option γ) (l : List α) :
    (l.flatMap f).findSome? g = l.findSome? fun a => (f a).findSome? g := by
  induction l with
  | nil => rfl
  | cons a l ih =>
    rw [List.flatMap_cons, List.findSome?_append, ih, List.findSome?_cons]
    cases (f a).findSome? g with
    | none => exact Option.none_or
    | some b => exact Option.some_or

theorem find?_filterMap_reference? (models : ModelTable) (types : List TypeRef) :
    (types.filterMap TypeRef.reference?).find? (· ∉ models.keys) =
      types.findSome? (TypeRef.undeclared? models) := by
  induction types with
  | nil => rfl
  | cons type types ih =>
    rw [List.filterMap_cons, List.findSome?_cons, TypeRef.undeclared?]
    -- a scalar is left out by `filterMap`, a declared name is passed over by the search
    cases type.reference? with
    | none => exact ih
    | some name =>
      show List.find? _ (name :: types.filterMap TypeRef.reference?) = _
      rw [List.find?_cons, Option.filter_some]
      by_cases h : name ∈ models.keys
      · rw [decide_eq_false (not_not.2 h)]
        exact ih
      · rw [decide_eq_true h]
        rfl

/-- The first undeclared name in the fields of a model. -/
def Model.undeclared? (models : ModelTable) (model : Model) : Option String :=
  model.fields.findSome? fun field => field.type.undeclared? models

/-- The first undeclared name in the bodies of an endpoint. -/
def Endpoint.undeclared? (models : ModelTable) (endpoint : Endpoint) : Option String :=
  (endpoint.request.bind (TypeRef.undeclared? models)).or
    (endpoint.response.bind (TypeRef.undeclared? models))

theorem Model.undeclared?_eq_none_iff {models : ModelTable} {model : Model} :
    model.undeclared? models = none ↔ model.IsResolved models := by
  rw [Model.undeclared?, List.findSome?_eq_none_iff]
  exact forall₂_congr fun field _ => TypeRef.undeclared?_eq_none_iff

theorem bind_undeclared?_eq_none_iff {models : ModelTable} {type? : Option TypeRef} :
    type?.bind (TypeRef.undeclared? models) = none ↔
      ∀ type, type? = some type → type.IsDeclared models := by
  rw [Option.bind_eq_none_iff]
  exact forall₂_congr fun type _ => TypeRef.undeclared?_eq_none_iff

theorem Endpoint.undeclared?_eq_none_iff {models : ModelTable} {endpoint : Endpoint} :
    endpoint.undeclared? models = none ↔ endpoint.IsResolved models := by
  rw [Endpoint.undeclared?, Option.or_eq_none_iff, bind_undeclared?_eq_none_iff,
    bind_undeclared?_eq_none_iff, Endpoint.IsResolved]

/-- The search runs over the models, and then over the endpoints. -/
theorem findSome?_writtenTypes (models : ModelTable) (endpoints : List Endpoint) :
    (writtenTypes models endpoints).findSome? (TypeRef.undeclared? models) =
      (models.values.findSome? (Model.undeclared? models)).or
        (endpoints.findSome? (Endpoint.undeclared? models)) := by
  have hbodies : ∀ endpoint : Endpoint,
      (endpoint.request.toList ++ endpoint.response.toList).findSome?
        (TypeRef.undeclared? models) = endpoint.undeclared? models := by
    intro endpoint
    rw [List.findSome?_append, Endpoint.undeclared?]
    cases endpoint.request <;> cases endpoint.response <;> simp
  rw [writtenTypes, List.findSome?_append, findSome?_flatMap, findSome?_flatMap]
  simp only [hbodies, List.findSome?_map, Function.comp_def]
  rfl

/-! ### The check -/

theorem firstUndeclared_iff {models : ModelTable} {endpoints : List Endpoint} {name : String} :
    FirstUndeclared models endpoints name ↔
      (writtenTypes models endpoints).findSome? (TypeRef.undeclared? models) = some name := by
  -- the search ends in the models, or it passes all of them
  rw [findSome?_writtenTypes, Option.or_eq_some_iff]
  constructor
  · intro h
    cases h with
    | @field before after model fieldsBefore fieldsAfter field hmodels hbefore hfields
        hfieldsBefore hname hundeclared =>
      refine Or.inl (List.findSome?_eq_some_iff.2 ⟨before, model, after, hmodels, ?_, ?_⟩)
      · exact List.findSome?_eq_some_iff.2 ⟨fieldsBefore, field, fieldsAfter, hfields,
          TypeRef.undeclared?_eq_some_iff.2 ⟨hname, hundeclared⟩,
          fun other hother => TypeRef.undeclared?_eq_none_iff.2 (hfieldsBefore other hother)⟩
      · exact fun other hother => Model.undeclared?_eq_none_iff.2 (hbefore other hother)
    | @request before after endpoint type hmodels hendpoints hbefore htype hname hundeclared =>
      refine Or.inr ⟨List.findSome?_eq_none_iff.2 fun model hmodel =>
        Model.undeclared?_eq_none_iff.2 (hmodels model hmodel),
        List.findSome?_eq_some_iff.2 ⟨before, endpoint, after, hendpoints, ?_,
          fun other hother => Endpoint.undeclared?_eq_none_iff.2 (hbefore other hother)⟩⟩
      rw [Endpoint.undeclared?, htype, Option.bind_some,
        TypeRef.undeclared?_eq_some_iff.2 ⟨hname, hundeclared⟩, Option.some_or]
    | @response before after endpoint type hmodels hendpoints hbefore hrequest htype hname
        hundeclared =>
      refine Or.inr ⟨List.findSome?_eq_none_iff.2 fun model hmodel =>
        Model.undeclared?_eq_none_iff.2 (hmodels model hmodel),
        List.findSome?_eq_some_iff.2 ⟨before, endpoint, after, hendpoints, ?_,
          fun other hother => Endpoint.undeclared?_eq_none_iff.2 (hbefore other hother)⟩⟩
      rw [Endpoint.undeclared?, bind_undeclared?_eq_none_iff.2 hrequest, Option.none_or, htype,
        Option.bind_some, TypeRef.undeclared?_eq_some_iff.2 ⟨hname, hundeclared⟩]
  · rintro (h | ⟨hmodels, h⟩)
    · obtain ⟨before, model, after, hmodels, hmodel, hbefore⟩ := List.findSome?_eq_some_iff.1 h
      obtain ⟨fieldsBefore, field, fieldsAfter, hfields, hfield, hfieldsBefore⟩ :=
        List.findSome?_eq_some_iff.1 hmodel
      obtain ⟨hname, hundeclared⟩ := TypeRef.undeclared?_eq_some_iff.1 hfield
      exact .field hmodels
        (fun other hother => Model.undeclared?_eq_none_iff.1 (hbefore other hother)) hfields
        (fun other hother => TypeRef.undeclared?_eq_none_iff.1 (hfieldsBefore other hother))
        hname hundeclared
    · obtain ⟨before, endpoint, after, hendpoints, hendpoint, hbefore⟩ :=
        List.findSome?_eq_some_iff.1 h
      have hmodels' : ∀ model ∈ models.values, model.IsResolved models := fun model hmodel =>
        Model.undeclared?_eq_none_iff.1 (List.findSome?_eq_none_iff.1 hmodels model hmodel)
      have hbefore' : ∀ other ∈ before, other.IsResolved models := fun other hother =>
        Endpoint.undeclared?_eq_none_iff.1 (hbefore other hother)
      rcases Option.or_eq_some_iff.1 hendpoint with hrequest | ⟨hrequest, hresponse⟩
      · obtain ⟨type, htype, hname⟩ := Option.bind_eq_some_iff.1 hrequest
        obtain ⟨hname, hundeclared⟩ := TypeRef.undeclared?_eq_some_iff.1 hname
        exact .request hmodels' hendpoints hbefore' htype hname hundeclared
      · obtain ⟨type, htype, hname⟩ := Option.bind_eq_some_iff.1 hresponse
        obtain ⟨hname, hundeclared⟩ := TypeRef.undeclared?_eq_some_iff.1 hname
        exact .response hmodels' hendpoints hbefore' (bind_undeclared?_eq_none_iff.1 hrequest) htype
          hname hundeclared

/-- **The fault of the check** is the first undeclared name. -/
theorem checkReferences_eq_error_iff {models : ModelTable} {endpoints : List Endpoint}
    {fault : Fault} :
    checkReferences models endpoints = .error fault ↔
      ∃ name, FirstUndeclared models endpoints name ∧ fault = .unresolvedReference name := by
  simp only [firstUndeclared_iff]
  rw [checkReferences, find?_filterMap_reference?]
  cases (writtenTypes models endpoints).findSome? (TypeRef.undeclared? models) with
  | none => exact iff_of_false nofun nofun
  | some name =>
    constructor
    · intro h
      cases h
      exact ⟨name, rfl, rfl⟩
    · rintro ⟨other, hother, rfl⟩
      cases hother
      rfl

/-- **The check passes** exactly if every type that is written refers to declared models only. -/
theorem checkReferences_eq_ok_iff {models : ModelTable} {endpoints : List Endpoint} :
    checkReferences models endpoints = .ok () ↔
      (∀ model ∈ models.values, model.IsResolved models) ∧
        ∀ endpoint ∈ endpoints, endpoint.IsResolved models := by
  have hsearch : (writtenTypes models endpoints).findSome? (TypeRef.undeclared? models) = none ↔
      (∀ model ∈ models.values, model.IsResolved models) ∧
        ∀ endpoint ∈ endpoints, endpoint.IsResolved models := by
    rw [findSome?_writtenTypes, Option.or_eq_none_iff, List.findSome?_eq_none_iff,
      List.findSome?_eq_none_iff]
    simp only [Model.undeclared?_eq_none_iff, Endpoint.undeclared?_eq_none_iff]
  rw [← hsearch, checkReferences, find?_filterMap_reference?]
  cases (writtenTypes models endpoints).findSome? (TypeRef.undeclared? models) with
  | none => exact iff_of_true rfl rfl
  | some name => exact iff_of_false nofun nofun

/-- Some undeclared name is mentioned exactly if there is a first one. -/
theorem exists_firstUndeclared_iff {models : ModelTable} {endpoints : List Endpoint} :
    (∃ name, FirstUndeclared models endpoints name) ↔
      ∃ name, Mentions models endpoints name ∧ name ∉ models.keys := by
  constructor
  · rintro ⟨name, h⟩
    refine ⟨name, ?_⟩
    cases h with
    | field hmodels _ hfields _ hname hundeclared =>
      exact ⟨Or.inl ⟨_, hmodels ▸ List.mem_append_right _ List.mem_cons_self, _,
        hfields ▸ List.mem_append_right _ List.mem_cons_self, hname⟩, hundeclared⟩
    | request _ hendpoints _ htype hname hundeclared =>
      exact ⟨Or.inr ⟨_, hendpoints ▸ List.mem_append_right _ List.mem_cons_self, _, Or.inl htype,
        hname⟩, hundeclared⟩
    | response _ hendpoints _ _ htype hname hundeclared =>
      exact ⟨Or.inr ⟨_, hendpoints ▸ List.mem_append_right _ List.mem_cons_self, _, Or.inr htype,
        hname⟩, hundeclared⟩
  · rintro ⟨name, hname, hundeclared⟩
    -- were there no first one, the check would pass, and `name` would be declared
    by_contra hnone
    have hok : checkReferences models endpoints = .ok () := by
      cases hcheck : checkReferences models endpoints with
      | ok => rfl
      | error fault =>
        obtain ⟨first, hfirst, -⟩ := checkReferences_eq_error_iff.1 hcheck
        exact absurd ⟨first, hfirst⟩ hnone
    obtain ⟨hmodels, hendpoints⟩ := checkReferences_eq_ok_iff.1 hok
    rcases hname with ⟨model, hmodel, field, hfield, href⟩ |
      ⟨endpoint, hendpoint, type, hrequest | hresponse, href⟩
    · exact hundeclared (hmodels model hmodel field hfield name href)
    · exact hundeclared ((hendpoints endpoint hendpoint).1 type hrequest name href)
    · exact hundeclared ((hendpoints endpoint hendpoint).2 type hresponse name href)

end ApiShorthand
