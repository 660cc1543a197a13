import ApiShorthand.Proofs.Document.Layout
import ApiShorthand.Proofs.Grammar.Concatenation

/-!
# The order of models

What two models texts compile to, the one behind the other, does not depend on which of them comes
first, but for the order of the definitions (`texts_join`): references are looked up among all
models, before and behind the reference.
-/

namespace ApiShorthand

open Document Endpoint

variable {models models' : List Model} {endpoints : List Endpoint}

/-- Two documents have the same paths, and the same definitions in any order. -/
structure Document.SameUpToOrder (document document' : Document) : Prop where
  paths : document.paths = document'.paths
  definitions : document.definitions.Perm document'.definitions
  find? : ∀ name, document.definitions.find? name = document'.definitions.find? name

/-- Tables with the same entries give the same value for every key. -/
theorem Table.find?_eq_of_perm {α : Type} {table table' : Table α} (hnodup : (keys table).Nodup)
    (h : table.Perm table') (key : String) : find? key table = find? key table' := by
  have hnodup' : (keys table').Nodup := (h.map Prod.fst).nodup_iff.1 hnodup
  ext value
  rw [find?_eq_some_iff hnodup, find?_eq_some_iff hnodup', h.mem_iff]

theorem Document.ofDeclarations_perm (options : Options) (hnames : (models.map (·.name)).Nodup)
    (h : models.Perm models') :
    (ofDeclarations options models endpoints).SameUpToOrder
      (ofDeclarations options models' endpoints) := by
  have hdefinitions : (ofDeclarations options models endpoints).definitions.Perm
      (ofDeclarations options models' endpoints).definitions := h.map _
  refine ⟨rfl, hdefinitions, Table.find?_eq_of_perm ?_ hdefinitions⟩
  rwa [keys_definitions_ofDeclarations]

theorem checkReferences_perm (endpoints : List Endpoint) (h : models.Perm models') :
    checkReferences (.ofModels models) endpoints = .ok () ↔
      checkReferences (.ofModels models') endpoints = .ok () := by
  have hkeys (name : String) :
      name ∈ (ModelTable.ofModels models).keys ↔ name ∈ (ModelTable.ofModels models').keys :=
    ((h.map _).map _).mem_iff
  simp only [checkReferences_eq_ok_iff, ModelTable.values_ofModels, Model.IsResolved,
    Endpoint.IsResolved, TypeRef.IsDeclared, hkeys, h.mem_iff]

/-! ### Two texts -/

theorem Model.renumbered_refl (model : Model) : model.Renumbered (fun _ _ => True) model :=
  ⟨rfl, trivial, List.forall₂_same.2 fun field _ => ⟨field.line, trivial, rfl⟩⟩

/-- A model that was moved is the model itself up to lines. -/
theorem Model.renumbered_moved (count : Nat) (model : Model) :
    (model.moved count).Renumbered (fun _ _ => True) model := by
  refine ⟨rfl, trivial, ?_⟩
  rw [moved, List.forall₂_map_left_iff, List.forall₂_same]
  exact fun field _ => ⟨field.line, trivial, rfl⟩

theorem Model.renumbered_append_moved (count : Nat) (models others : List Model) :
    List.Forall₂ (Renumbered fun _ _ => True) (models ++ others.map (moved count))
      (models ++ others) := by
  refine List.rel_append (List.forall₂_same.2 fun model _ => renumbered_refl model) ?_
  rw [List.forall₂_map_left_iff, List.forall₂_same]
  exact fun model _ => renumbered_moved count model

/-- The lines of the models do not count for a run, but for its fault. -/
theorem compile_of_renumbered {text endpointsText : String} {options : Options}
    {plain : List Model} (hread : Model.readAll text = .ok models)
    (hplain : List.Forall₂ (Model.Renumbered fun _ _ => True) models plain) :
    compile text endpointsText options =
      Endpoint.readAll endpointsText >>= fun endpoints =>
        checkReferences (.ofModels plain) endpoints >>= fun _ =>
          .ok (ofDeclarations options plain endpoints) := by
  have hendpoints (endpoints : List Endpoint) :
      List.Forall₂ (Endpoint.Renumbered fun _ _ => True) endpoints endpoints :=
    List.forall₂_same.2 fun endpoint _ => ⟨endpoint.line, trivial, rfl⟩
  rw [compile_eq, hread]
  refine congrArg (Endpoint.readAll endpointsText >>= ·) (funext fun endpoints => ?_)
  rw [checkReferences_renumbered hplain (hendpoints endpoints),
    ofDeclarations_renumbered options hplain (hendpoints endpoints)
      (Model.haveDistinctNames_of_readAll hread)]

theorem compile_corresponds_of_perm {text text' endpointsText : String} {options : Options}
    {plain plain' : List Model} (hread : Model.readAll text = .ok models)
    (hread' : Model.readAll text' = .ok models')
    (hplain : List.Forall₂ (Model.Renumbered fun _ _ => True) models plain)
    (hplain' : List.Forall₂ (Model.Renumbered fun _ _ => True) models' plain')
    (hperm : plain.Perm plain') :
    Except.Corresponds (fun _ _ => True) SameUpToOrder (compile text endpointsText options)
      (compile text' endpointsText options) := by
  have hnames : (plain.map (·.name)).Nodup := by
    rw [Model.names_renumbered hplain]
    exact (Model.haveDistinctNames_of_readAll hread).modelNames
  rw [compile_of_renumbered hread hplain, compile_of_renumbered hread' hplain']
  cases Endpoint.readAll endpointsText with
  | error fault => trivial
  | ok endpoints =>
    have hcheck := checkReferences_perm endpoints hperm
    show Except.Corresponds _ _ (checkReferences (.ofModels plain) endpoints >>= fun _ => _)
      (checkReferences (.ofModels plain') endpoints >>= fun _ => _)
    cases hfirst : checkReferences (.ofModels plain) endpoints with
    | error fault =>
      cases hsecond : checkReferences (.ofModels plain') endpoints with
      | error fault' => trivial
      | ok _ =>
        rw [hfirst, hsecond] at hcheck
        cases hcheck.2 rfl
    | ok _ =>
      rw [hcheck.1 hfirst]
      exact ofDeclarations_perm options hnames hperm

/-- **The order of models**: two models texts compile together in either order or in none, to the
same document up to the order of the definitions. -/
theorem compile_append_comm {text other : String} {others : List Model}
    (hends : EndsLine text.toList) (hends' : EndsLine other.toList)
    (hread : Model.readAll text = .ok models) (hread' : Model.readAll other = .ok others)
    (endpointsText : String) (options : Options) :
    Except.Corresponds (fun _ _ => True) SameUpToOrder
      (compile (text ++ other) endpointsText options)
      (compile (other ++ text) endpointsText options) := by
  have hfailed {texts : String} {fault : Fault} (h : Model.readAll texts = .error fault) :
      compile texts endpointsText options = .error fault := by
    rw [compile_eq, h]
    rfl
  rcases Model.readsJoined text other models others hends hread hread' with
    ⟨hdisjoint, hok⟩ | ⟨name, hshared, herror⟩ <;>
    rcases Model.readsJoined other text others models hends' hread' hread with
      ⟨hdisjoint', hok'⟩ | ⟨name', hshared', herror'⟩
  · exact compile_corresponds_of_perm hok hok' (Model.renumbered_append_moved _ models others)
      (Model.renumbered_append_moved _ others models) List.perm_append_comm
  · obtain ⟨hmem, hmem'⟩ := hshared'.mem_both
    exact absurd hmem' (hdisjoint name' hmem)
  · obtain ⟨hmem, hmem'⟩ := hshared.mem_both
    exact absurd hmem' (hdisjoint' name hmem)
  · rw [hfailed herror, hfailed herror']
    trivial

/-- **Texts one behind the other**: both readers join what two texts declare, and the order of two
models texts makes no difference to what compiles. -/
theorem texts_join :
    ReadsJoined ModelTable.ofString Prod.fst .duplicateModel ModelTable.movedEntry ∧
    ReadsJoined Endpoint.readAll operation repeatedOperation Endpoint.moved ∧
    ∀ (text other : String) (table table' : ModelTable), EndsLine text.toList →
      EndsLine other.toList → ModelTable.ofString text = .ok table →
      ModelTable.ofString other = .ok table' →
      ∀ (endpointsText : String) (options : Options),
        Except.Corresponds (fun _ _ => True) SameUpToOrder
          (compile (text ++ other) endpointsText options)
          (compile (other ++ text) endpointsText options) := by
  refine ⟨ModelTable.readsJoined, Endpoint.readsJoined, ?_⟩
  intro text other table table' hends hends' htable htable' endpointsText options
  obtain ⟨models, hread, -⟩ := ModelTable.ofString_eq_ok_iff.1 htable
  obtain ⟨others, hread', -⟩ := ModelTable.ofString_eq_ok_iff.1 htable'
  exact compile_append_comm hends hends' hread hread' endpointsText options

/-- Two models that refer to each other, and two endpoints of one operation. -/
theorem texts_join_mutualModels :
    ModelTable.ofString ("User:\n  team: Team\n" ++ "Team:\n  lead: User\n") =
      .ok [("User", ⟨"User", 1, [⟨"team", 2, .model "Team", false, false⟩]⟩),
        ("Team", ⟨"Team", 3, [⟨"lead", 4, .model "User", false, false⟩]⟩)] ∧
    Endpoint.readAll ("GET /users\n" ++ "GET /users\n") =
      .error (.duplicateEndpoint .get "/users") ∧
    ∀ (endpointsText : String) (options : Options),
      Except.Corresponds (fun _ _ => True) SameUpToOrder
        (compile ("User:\n  team: Team\n" ++ "Team:\n  lead: User\n") endpointsText options)
        (compile ("Team:\n  lead: User\n" ++ "User:\n  team: Team\n") endpointsText options) := by
  have husers : ModelTable.ofString "User:\n  team: Team\n" =
      .ok [("User", ⟨"User", 1, [⟨"team", 2, .model "Team", false, false⟩]⟩)] := by decide +kernel
  have hteams : ModelTable.ofString "Team:\n  lead: User\n" =
      .ok [("Team", ⟨"Team", 1, [⟨"lead", 2, .model "User", false, false⟩]⟩)] := by decide +kernel
  have hendpoints : Endpoint.readAll "GET /users\n" =
      .ok [⟨.get, "/users", 1, none, none, false⟩] := by decide +kernel
  have husersEnd : EndsLine "User:\n  team: Team\n".toList := by simp [EndsLine]
  have hteamsEnd : EndsLine "Team:\n  lead: User\n".toList := by simp [EndsLine]
  have hendpointsEnd : EndsLine "GET /users\n".toList := by simp [EndsLine]
  obtain ⟨hmodels, hoperations, hcompile⟩ := texts_join
  refine ⟨?_, ?_, ?_⟩
  · rcases hmodels _ _ _ _ husersEnd husers hteams with ⟨-, hok⟩ | ⟨name, hshared, -⟩
    · exact hok
    · obtain ⟨hmem, hmem'⟩ := hshared.mem_both
      simp_all
  · rcases hoperations _ _ _ _ hendpointsEnd hendpoints hendpoints with
      ⟨hdisjoint, -⟩ | ⟨k, hshared, herror⟩
    · simp at hdisjoint
    · obtain ⟨hmem, -⟩ := hshared.mem_both
      obtain rfl := List.mem_singleton.1 hmem
      exact herror
  · exact fun endpointsText options =>
      hcompile _ _ _ _ husersEnd hteamsEnd husers hteams endpointsText options

end ApiShorthand
