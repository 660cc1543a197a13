import ApiShorthand.Proofs.Document.Options
import ApiShorthand.Proofs.Grammar.Renumbering
import ApiShorthand.Proofs.Line.Layout

/-!
# Layout and documents

Documents do not tell where a model or an endpoint was declared
(`Document.ofDeclarations_renumbered`). So what two texts compile to does not depend on their
layout, but for the number of the line that a fault is about (`compile_changesLayout`).
-/

namespace ApiShorthand

open Document Endpoint Text

variable {same sameModels sameEndpoints : Nat → Nat → Prop} {models models' : List Model}
  {endpoints endpoints' : List Endpoint}

/-! ### Declarations without their lines -/

theorem Model.requiredNames_renumbered {fields fields' : List Field}
    (h : List.Forall₂ (Field.Renumbered same) fields fields') :
    requiredNames fields' = requiredNames fields := by
  refine map_filter_eq_of_forall₂ (fun field field' hfield => ?_) h
  obtain ⟨number', -, rfl⟩ := hfield
  exact ⟨rfl, rfl⟩

/-- The definition of a completed model is made of the properties and the required names of its
fields. -/
theorem Schema.ofModel_complete_renumbered (options : Options) {model model' : Model}
    (h : model.Renumbered same model') (hnodup : (model.fields.map (·.name)).Nodup) :
    ofModel (model'.complete options) = ofModel (model.complete options) := by
  have hnames : model'.fields.map (·.name) = model.fields.map (·.name) :=
    Model.map_fields_renumbered (fun _ _ => rfl) h.fields
  have hproperties : plainProperties model'.fields = plainProperties model.fields :=
    Model.map_fields_renumbered (fun _ _ => rfl) h.fields
  rw [ofModel_complete options hnodup, ofModel_complete options (hnames ▸ hnodup), ofFields,
    ofFields, plainProperties_allFields, plainProperties_allFields, requiredNames_allFields,
    requiredNames_allFields, addedProperties, addedProperties, addedRequired, addedRequired,
    hproperties, hnames, Model.requiredNames_renumbered h.fields]

theorem Document.groupedPaths_renumbered
    (h : List.Forall₂ (Endpoint.Renumbered same) endpoints endpoints') :
    groupedPaths endpoints' = groupedPaths endpoints := by
  have horder : pathOrder endpoints' = pathOrder endpoints := by
    rw [pathOrder, pathOrder, map_eq_of_forall₂ (fun endpoint endpoint' hendpoint => ?_) h]
    obtain ⟨number', -, rfl⟩ := hendpoint
    rfl
  have hitem : itemOf endpoints' = itemOf endpoints := by
    funext path
    refine map_filter_eq_of_forall₂ (fun endpoint endpoint' hendpoint => ?_) h
    obtain ⟨number', -, rfl⟩ := hendpoint
    exact ⟨rfl, rfl⟩
  rw [groupedPaths, groupedPaths, horder, hitem]

/-- The lines of declarations do not show in their document. -/
theorem Document.ofDeclarations_renumbered (options : Options)
    (hmodels : List.Forall₂ (Model.Renumbered sameModels) models models')
    (hendpoints : List.Forall₂ (Endpoint.Renumbered sameEndpoints) endpoints endpoints')
    (hdistinct : Model.HaveDistinctNames models) :
    ofDeclarations options models' endpoints' = ofDeclarations options models endpoints := by
  have hdefinitions :
      models'.map (fun model => (model.name, Schema.ofModel (model.complete options))) =
        models.map fun model => (model.name, Schema.ofModel (model.complete options)) := by
    have hfields := hdistinct.fieldNames
    clear hdistinct
    induction hmodels with
    | nil => rfl
    | @cons model model' models models' hmodel _ ih =>
      have hnodup := hfields model List.mem_cons_self
      rw [List.map_cons, List.map_cons, hmodel.name,
        Schema.ofModel_complete_renumbered options hmodel hnodup,
        ih fun other hother => hfields other (List.mem_cons_of_mem _ hother)]
  rw [ofDeclarations, ofDeclarations, groupedPaths_renumbered hendpoints, hdefinitions]

theorem checkReferences_renumbered
    (hmodels : List.Forall₂ (Model.Renumbered sameModels) models models')
    (hendpoints : List.Forall₂ (Endpoint.Renumbered sameEndpoints) endpoints endpoints') :
    checkReferences (.ofModels models') endpoints' =
      checkReferences (.ofModels models) endpoints := by
  have hkeys : (ModelTable.ofModels models').keys = (ModelTable.ofModels models).keys := by
    simpa [Table.keys, ModelTable.ofModels, Function.comp_def] using
      Model.names_renumbered hmodels
  have htypes : writtenTypes (.ofModels models') endpoints' =
      writtenTypes (.ofModels models) endpoints := by
    rw [writtenTypes, writtenTypes, ModelTable.values_ofModels, ModelTable.values_ofModels,
      List.flatMap_def, List.flatMap_def, List.flatMap_def, List.flatMap_def]
    congr 2
    · exact map_eq_of_forall₂
        (fun _ _ hmodel => Model.map_fields_renumbered (fun _ _ => rfl) hmodel.fields) hmodels
    · refine map_eq_of_forall₂ (fun endpoint endpoint' hendpoint => ?_) hendpoints
      obtain ⟨number', -, rfl⟩ := hendpoint
      rfl
  rw [checkReferences, checkReferences, htypes, hkeys]

/-! ### Runs -/

/-- **Layout does not matter.** Texts that differ in their layout compile to the same document, or
fail with the same fault, about the same line. -/
theorem compile_changesLayout {modelsText modelsText' endpointsText endpointsText' : String}
    (hmodels : ChangesLayout modelsText.toList modelsText'.toList sameModels)
    (hendpoints : ChangesLayout endpointsText.toList endpointsText'.toList sameEndpoints)
    (options : Options) :
    Relator.BiUnique sameModels ∧ Relator.BiUnique sameEndpoints ∧
      Except.Corresponds
        (fun fault fault' =>
          (Model.readAll modelsText = .error fault ∧ fault.Renumbered sameModels fault') ∨
          ((∃ models, Model.readAll modelsText = .ok models) ∧
            fault.Renumbered sameEndpoints fault'))
        Eq (compile modelsText endpointsText options)
        (compile modelsText' endpointsText' options) := by
  refine ⟨hmodels.biUnique, hendpoints.biUnique, ?_⟩
  rw [compile_eq, compile_eq]
  -- the models text is read first, so that its faults are told from the later ones
  refine Except.Corresponds.bind ((Model.readAll_corresponds hmodels.forall₂_shownFrom).and_ok
    |>.mono_faults fun fault fault' hread hfault => Or.inl ⟨hread, hfault⟩) ?_
  rintro models models' ⟨hread, hmodels'⟩
  have hlater {fault fault' : Fault} (h : fault.Renumbered sameEndpoints fault') :
      (Model.readAll modelsText = .error fault ∧ fault.Renumbered sameModels fault') ∨
        ((∃ models, Model.readAll modelsText = .ok models) ∧
          fault.Renumbered sameEndpoints fault') :=
    Or.inr ⟨⟨models, hread⟩, h⟩
  refine Except.Corresponds.bind ((Endpoint.readAll_corresponds hendpoints.forall₂_shownFrom)
    |>.mono_faults fun _ _ _ => hlater) fun endpoints endpoints' hendpoints' => ?_
  rw [checkReferences_renumbered hmodels' hendpoints', Document.ofDeclarations_renumbered options
    hmodels' hendpoints' (Model.haveDistinctNames_of_readAll hread)]
  cases hcheck : checkReferences (.ofModels models) endpoints with
  | error fault =>
    obtain ⟨name, -, rfl⟩ := checkReferences_eq_error_iff.1 hcheck
    exact hlater (.other nofun)
  | ok _ => exact rfl

/-- A comment, white space behind a header, and two ends of lines: what was wrong with the second
line is wrong with the third one now. -/
theorem compile_changesLayout_commentedUser :
    Model.readAll "User:\n  name string" = .error (.line .fieldExpected 2 "name string") ∧
    ∃ same, ChangesLayout "User:\n  name string".toList
        "// people\nUser: \r\n  name string\r\n".toList same ∧ same 2 3 ∧
      ∀ (endpointsText : String) (options : Options),
        Except.Corresponds
          (fun fault fault' =>
            (Model.readAll "User:\n  name string" = .error fault ∧ fault.Renumbered same fault') ∨
            ((∃ models, Model.readAll "User:\n  name string" = .ok models) ∧
              fault.Renumbered Eq fault'))
          Eq (compile "User:\n  name string" endpointsText options)
          (compile "// people\nUser: \r\n  name string\r\n" endpointsText options) := by
  have hcomment : AddsLayout "User:\n  name string".toList
      "// people\nUser:\n  name string".toList _ :=
    @AddsLayout.line [] "// people".toList ['\n'] _ nofun (by decide)
      (Or.inr ⟨[], " people".toList, isBlankText_nil, rfl⟩) (Or.inl rfl)
  have hgap : AddsLayout "// people\nUser:\n  name string".toList
      "// people\nUser: \n  name string".toList Eq :=
    @AddsLayout.trailing "// people\nUser:".toList [' '] "\n  name string".toList
      (isBlankText_cons.2 ⟨by decide, isBlankText_nil⟩) (by decide)
      (Or.inr ⟨['\n'], "  name string".toList, Or.inl rfl, rfl⟩)
  have hreturn : AddsLayout "// people\nUser: \n  name string".toList
      "// people\nUser: \r\n  name string".toList Eq :=
    @AddsLayout.carriageReturn "// people\nUser: ".toList "  name string".toList
  have hend : AddsLayout "// people\nUser: \r\n  name string".toList
      "// people\nUser: \r\n  name string\r\n".toList Eq :=
    @AddsLayout.lastEnd _ ['\r', '\n'] (Or.inr rfl)
  have hlayout := ((((ChangesLayout.refl _).add hcomment).add hgap).add hreturn).add hend
  refine ⟨by decide +kernel, _, hlayout, ?_, fun endpointsText options => ?_⟩
  · exact ⟨3, ⟨3, ⟨3, ⟨2, rfl, rfl⟩, rfl⟩, rfl⟩, rfl⟩
  · exact (compile_changesLayout hlayout (.refl _) options).2.2

end ApiShorthand
