import ApiShorthand.Proofs.Document.Faithful
import ApiShorthand.Proofs.Specification.Completion

/-!
# The effect of the options on documents

Two texts are read and checked before the options count, so a document is known from what the texts
declare (`compile_eq`). Two runs on the same texts therefore fail alike, and their documents differ
in the definitions only: by the default fields that a model does not declare, and by `null` as a
value of the properties that are not required (`compile_agree_plain`). What a model declares stays
in front of its definition as it is declared, also under the name of a default field.
-/

namespace ApiShorthand

open Document Grammar

/-! ### Documents of declarations -/

/-- The document of what two texts declare. -/
def Document.ofDeclarations (options : Options) (models : List Model) (endpoints : List Endpoint) :
    Document where
  paths := groupedPaths endpoints
  definitions := models.map fun model => (model.name, Schema.ofModel (model.complete options))

theorem Document.ofSpecification_of_build {modelsText endpointsText : String} {options : Options}
    {models : List Model} {endpoints : List Endpoint}
    (hbuild : Specification.build modelsText endpointsText options = .ok
      { models := (ModelTable.ofModels models).mapValues (Model.complete options), endpoints,
        options }) :
    ofSpecification
        { models := (ModelTable.ofModels models).mapValues (Model.complete options), endpoints,
          options } =
      .ok (ofDeclarations options models endpoints) := by
  have hwell := Specification.isWellFormed_of_build hbuild
  rw [ofSpecification_of_isWellFormed hwell, ofDeclarations,
    definitionsOf_eq_map hwell.distinctNames.modelNames, ModelTable.values_mapValues,
    ModelTable.values_ofModels, List.map_map]
  simp only [Function.comp_def, Model.name_complete]

/-- **The stages of a run**: only the last one looks at the options, and it does not fail. -/
theorem compile_eq (modelsText endpointsText : String) (options : Options) :
    compile modelsText endpointsText options =
      Model.readAll modelsText >>= fun models =>
        Endpoint.readAll endpointsText >>= fun endpoints =>
          checkReferences (.ofModels models) endpoints >>= fun _ =>
            .ok (ofDeclarations options models endpoints) := by
  cases hmodels : Model.readAll modelsText with
  | error fault =>
    unfold compile Specification.build ModelTable.ofString
    rw [hmodels]
    rfl
  | ok models =>
    have htable : ModelTable.ofString modelsText = .ok (.ofModels models) :=
      ModelTable.ofString_eq_ok_iff.2 ⟨models, hmodels, rfl⟩
    cases hendpoints : Endpoint.readAll endpointsText with
    | error fault =>
      unfold compile Specification.build
      rw [htable, hendpoints]
      rfl
    | ok endpoints =>
      have hbuild := Specification.build_of_readable options htable hendpoints
      show _ = (checkReferences (.ofModels models) endpoints >>= fun _ =>
        .ok (ofDeclarations options models endpoints))
      cases hcheck : checkReferences (.ofModels models) endpoints with
      | error fault =>
        rw [hcheck] at hbuild
        rw [compile, hbuild]
        rfl
      | ok _ =>
        rw [hcheck] at hbuild
        rw [compile_of_build hbuild, ofSpecification_of_build hbuild]
        rfl

theorem compile_eq_ok_iff {modelsText endpointsText : String} {options : Options}
    {document : Document} :
    compile modelsText endpointsText options = .ok document ↔ ∃ models endpoints,
      Model.readAll modelsText = .ok models ∧ Endpoint.readAll endpointsText = .ok endpoints ∧
      checkReferences (.ofModels models) endpoints = .ok () ∧
      document = ofDeclarations options models endpoints := by
  simp only [compile_eq, Except.bind_eq_ok_iff]
  constructor
  · rintro ⟨models, hmodels, endpoints, hendpoints, _, hcheck, hok⟩
    exact ⟨models, endpoints, hmodels, hendpoints, hcheck, (Except.ok.inj hok).symm⟩
  · rintro ⟨models, endpoints, hmodels, hendpoints, hcheck, rfl⟩
    exact ⟨models, hmodels, endpoints, hendpoints, (), hcheck, rfl⟩

@[simp] theorem Document.keys_definitions_ofDeclarations (options : Options) (models : List Model)
    (endpoints : List Endpoint) :
    (ofDeclarations options models endpoints).definitions.keys = models.map (·.name) := by
  simp [ofDeclarations, Table.keys]

/-! ### Definitions under the options -/

namespace Schema

/-- The default fields as properties. -/
def defaultProperties : List (String × Schema) :=
  [("id", scalar .integer false), ("created_at", scalar .datetime false),
    ("updated_at", scalar .datetime false)]

/-- The default properties whose names a model does not declare, if the options ask for them. -/
def addedProperties (options : Options) (model : Model) : List (String × Schema) :=
  if options.addDefaults then defaultProperties.filter (·.1 ∉ model.fields.map (·.name)) else []

/-- The name `id`, if the options ask for it and a model does not declare it. -/
def addedRequired (options : Options) (model : Model) : List String :=
  if options.addDefaults = true ∧ "id" ∉ model.fields.map (·.name) then ["id"] else []

/-- The definition of what a model declares: a property for each field, in order and with the schema
of its type, and the names of the fields with an asterisk. -/
def declared (model : Model) : Schema :=
  object (plainProperties model.fields) (Model.requiredNames model.fields) false

/-- What the options make of the definition of a model. What is declared stays in front, and the
default fields follow that are not declared. A declared field keeps its own type and its own
asterisk, also if it has the name of a default field. -/
inductive FollowsOptions (options : Options) (model : Model) : Schema → Prop where
  | object {properties : List (String × Schema)} {required : List String}
      (hrequired : required = Model.requiredNames model.fields ++ addedRequired options model)
      (hproperties : properties =
        (plainProperties model.fields ++ addedProperties options model).map
          (widenOptional options.addNulls required))
      (hdeclared : ∀ field ∈ model.fields,
        (field.name ∈ required ↔ field.required = true) ∧
        Table.find? field.name properties =
          some (if options.addNulls = true ∧ field.required = false then (ofType field.type).orNull
            else ofType field.type))
      (hdistinct : (Table.keys properties).Nodup) :
      FollowsOptions options model (object properties required false)

theorem plainProperties_allFields (options : Options) (model : Model) :
    plainProperties (model.allFields options.addDefaults) =
      plainProperties model.fields ++ addedProperties options model := by
  have hdefaults : defaultProperties = plainProperties Field.defaults := rfl
  rw [Model.allFields, addedProperties, hdefaults]
  cases options.addDefaults with
  | false => simp
  | true =>
    rw [if_pos rfl, if_pos rfl, plainProperties, List.map_append, plainProperties, plainProperties,
      List.filter_map]
    rfl

theorem requiredNames_allFields (options : Options) (model : Model) :
    Model.requiredNames (model.allFields options.addDefaults) =
      Model.requiredNames model.fields ++ addedRequired options model := by
  rw [Model.allFields, addedRequired]
  cases options.addDefaults with
  | false => simp
  | true =>
    -- of the default fields only `id` is required
    have hid : Field.defaults.filter (·.required) = [Field.synthetic "id" .integer true] := rfl
    have hmissing : Model.requiredNames model.missingDefaults =
        if "id" ∉ model.fields.map (·.name) then ["id"] else [] := by
      rw [Model.requiredNames, Model.missingDefaults, List.filter_comm, hid]
      generalize model.fields.map (·.name) = names
      by_cases h : "id" ∈ names <;> simp [Field.synthetic, h]
    rw [if_pos rfl, Model.requiredNames, List.filter_append, List.map_append,
      ← Model.requiredNames, ← Model.requiredNames, hmissing]
    simp

/-- Without both switches, a definition is what the model declares. -/
theorem ofModel_complete_eq_declared {model : Model} (h : (model.fields.map (·.name)).Nodup) :
    ofModel (model.complete ⟨false, false⟩) = declared model := by
  have hplain : model.allFields false = model.fields := List.append_nil model.fields
  rw [ofModel_complete ⟨false, false⟩ h, ofFields, map_widenOptional_false, hplain, declared]

/-- Where names are distinct, the property of a field is found under the name of the field. -/
theorem find?_widened (addNulls : Bool) {fields : List Field} (h : (fields.map (·.name)).Nodup)
    {field : Field} (hfield : field ∈ fields) :
    Table.find? field.name
        ((plainProperties fields).map (widenOptional addNulls (Model.requiredNames fields))) =
      some (if addNulls = true ∧ field.required = false then (ofType field.type).orNull
        else ofType field.type) := by
  have hdistinct : (Table.keys ((plainProperties fields).map
      (widenOptional addNulls (Model.requiredNames fields)))).Nodup := by
    rwa [keys_map_widenOptional, keys_plainProperties]
  have hproperty : (field.name, ofType field.type) ∈ plainProperties fields :=
    List.mem_map_of_mem hfield
  refine (Table.find?_eq_some_iff hdistinct).2 (List.mem_map.2 ⟨_, hproperty, ?_⟩)
  simp only [widenOptional, Model.mem_requiredNames_iff_required h hfield, Bool.not_eq_true]

theorem followsOptions_ofModel (options : Options) {model : Model}
    (h : (model.fields.map (·.name)).Nodup) :
    FollowsOptions options model (ofModel (model.complete options)) := by
  have hnodup := Model.nodup_names_allFields options.addDefaults h
  rw [ofModel_complete options h, ofFields]
  refine .object (requiredNames_allFields options model) ?_ (fun field hfield => ?_) ?_
  · rw [plainProperties_allFields]
  · have hmem : field ∈ model.allFields options.addDefaults := List.mem_append_left _ hfield
    exact ⟨Model.mem_requiredNames_iff_required hnodup hmem,
      find?_widened options.addNulls hnodup hmem⟩
  · rwa [keys_map_widenOptional, keys_plainProperties]

end Schema

/-! ### Runs under the options -/

theorem Model.exists_modelsText_of_readAll {text : String} {models : List Model}
    (h : readAll text = .ok models) :
    ∃ lines, HasLines text lines ∧ ModelsText lines models := by
  obtain ⟨lines, hlines, hreads⟩ := readAll_eq_ok_iff_reads.1 h
  have hgrammar := (hasRead_of_reads hreads).grammar
  rw [List.reverse_reverse] at hgrammar
  exact ⟨lines, hlines, hgrammar⟩

/-- Runs on the same texts agree if the documents of what is declared do. -/
theorem compile_agree {modelsText endpointsText : String} {options options' : Options}
    {related : Document → Document → Prop}
    (h : ∀ models endpoints, Model.readAll modelsText = .ok models →
      related (ofDeclarations options models endpoints) (ofDeclarations options' models endpoints)) :
    Except.Agree related (compile modelsText endpointsText options)
      (compile modelsText endpointsText options') := by
  rw [compile_eq, compile_eq]
  refine Except.Agree.bind fun models hmodels => ?_
  refine Except.Agree.bind fun endpoints _ => ?_
  exact Except.Agree.bind fun _ _ => h models endpoints hmodels

/-- **The options act where they say, and nowhere else.** A run with any options and the run without
both switches fail alike or both succeed. Then the paths are the same, and the definitions are those
of the models in the order of their headers: without both switches what each model declares, and
with any options what they make of it. -/
theorem compile_agree_plain (modelsText endpointsText : String) (options : Options) :
    Except.Agree
      (fun document plain =>
        document.paths = plain.paths ∧
        ∃ lines models, HasLines modelsText lines ∧ ModelsText lines models ∧
          plain.definitions = models.map (fun model => (model.name, Schema.declared model)) ∧
          List.Forall₂
            (fun model entry => entry.1 = model.name ∧ Schema.FollowsOptions options model entry.2)
            models document.definitions)
      (compile modelsText endpointsText options)
      (compile modelsText endpointsText { addDefaults := false, addNulls := false }) := by
  refine compile_agree fun models endpoints hmodels => ⟨rfl, ?_⟩
  obtain ⟨lines, hlines, hgrammar⟩ := Model.exists_modelsText_of_readAll hmodels
  have hdistinct := Model.haveDistinctNames_of_readAll hmodels
  refine ⟨lines, models, hlines, hgrammar, ?_, ?_⟩
  · refine List.map_congr_left fun model hmodel => ?_
    rw [Schema.ofModel_complete_eq_declared (hdistinct.fieldNames model hmodel)]
  · rw [ofDeclarations, List.forall₂_map_right_iff, List.forall₂_same]
    intro model hmodel
    exact ⟨rfl, Schema.followsOptions_ofModel options (hdistinct.fieldNames model hmodel)⟩

/-- A model that declares two names of default fields, one of them with an asterisk. -/
def collidingText : String := "User:\n  updated_at*: integer\n  id: string\n"

/-- The definition of the model without both switches. -/
def plainCollision : Schema :=
  .object [("updated_at", .scalar .integer false), ("id", .scalar .string false)] ["updated_at"]
    false

/-- The definition of the model with both switches: the two fields keep their types, their places
and what the asterisk says of them. -/
def completedCollision : Schema :=
  .object [("updated_at", .scalar .integer false), ("id", .scalar .string true),
    ("created_at", .scalar .datetime true)] ["updated_at"] false

theorem compile_agree_plain_collidingText :
    compile collidingText "" ⟨false, false⟩ = .ok ⟨[], [("User", plainCollision)]⟩ ∧
    compile collidingText "" ⟨true, true⟩ = .ok ⟨[], [("User", completedCollision)]⟩ ∧
    completedCollision.toJson = .object [("type", .string "object"),
      ("properties", .object [("updated_at", .object [("type", .string "integer")]),
        ("id", .object [("type", .array [.string "string", .string "null"])]),
        ("created_at", .object [("type", .array [.string "string", .string "null"]),
          ("format", .string "date-time")])]),
      ("required", .array [.string "updated_at"])] ∧
    ∃ model, Schema.declared model = plainCollision ∧
      Schema.FollowsOptions ⟨true, true⟩ model completedCollision := by
  have hbuild : Specification.build collidingText "" ⟨true, true⟩ =
      .ok ⟨[("User", ⟨"User", 1, [⟨"updated_at", 2, .scalar .integer, true, false⟩,
        ⟨"id", 3, .scalar .string, false, true⟩,
        ⟨"created_at", 0, .scalar .datetime, false, true⟩]⟩)], [], ⟨true, true⟩⟩ := by
    decide +kernel
  have hbuild' : Specification.build collidingText "" ⟨false, false⟩ =
      .ok ⟨[("User", ⟨"User", 1, [⟨"updated_at", 2, .scalar .integer, true, false⟩,
        ⟨"id", 3, .scalar .string, false, false⟩]⟩)], [], ⟨false, false⟩⟩ := by
    decide +kernel
  have hcompiled : compile collidingText "" ⟨true, true⟩ =
      .ok ⟨[], [("User", completedCollision)]⟩ := (compile_of_build hbuild).trans rfl
  have hplain : compile collidingText "" ⟨false, false⟩ =
      .ok ⟨[], [("User", plainCollision)]⟩ := (compile_of_build hbuild').trans rfl
  have hagree := compile_agree_plain collidingText "" ⟨true, true⟩
  rw [hcompiled, hplain] at hagree
  obtain ⟨-, _, models, -, -, hdeclared, hfollows⟩ := hagree
  -- there is one definition, so there is one model
  obtain ⟨model, rfl⟩ : ∃ model, models = [model] :=
    List.length_eq_one_iff.1 (List.Forall₂.length_eq hfollows)
  rw [List.map_singleton, List.singleton_inj] at hdeclared
  obtain ⟨⟨-, hfollows⟩, -⟩ := List.forall₂_cons.1 hfollows
  exact ⟨hplain, hcompiled, rfl, model, (congrArg Prod.snd hdeclared).symm, hfollows⟩

end ApiShorthand
