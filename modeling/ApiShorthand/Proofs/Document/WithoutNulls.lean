import ApiShorthand.Proofs.Document.Validity

/-!
# The values that nulls add

With nulls a document describes the same data, up to properties that may be left out and may then
be `null` as well: a value is valid with nulls exactly if the value without these nulls is valid
without them (`compile_agree_withoutNulls`).

The nulls go wherever the types lead, through arrays and through references to other models, as
deep as the value is. The proof is by induction on the value, for all types at once
(`accepts_addNulls_iff`): models may refer to each other in circles, but a value ends.
-/

namespace ApiShorthand

/-- Whether a value is `null`. -/
def Json.isNull : Json → Bool
  | null => true
  | _ => false

theorem Json.isNull_iff {value : Json} : value.isNull = true ↔ value = null := by
  cases value <;> simp [isNull]

namespace Document

/-- A schema as it is, and the definition in place of a reference. -/
def resolve (document : Document) : Schema → Schema
  | .reference name => (document.definitions.find? name).getD (.reference name)
  | schema => schema

mutual

/-- The value without the entries that are `null` under a property that is not required, at every
place that the schema leads to. -/
def withoutNulls (document : Document) (schema : Schema) : Json → Json
  | .array items =>
    match document.resolve schema with
    | .array itemSchema _ => .array (itemsWithoutNulls document itemSchema items)
    | _ => .array items
  | .object entries =>
    match document.resolve schema with
    | .object properties required _ =>
      .object (entriesWithoutNulls document properties required entries)
    | _ => .object entries
  | value => value

/-- The items of an array, each without such nulls. -/
def itemsWithoutNulls (document : Document) (schema : Schema) : List Json → List Json
  | [] => []
  | item :: rest => withoutNulls document schema item :: itemsWithoutNulls document schema rest

/-- The entries of an object without such nulls. Names that are no property stay as they are. -/
def entriesWithoutNulls (document : Document) (properties : List (String × Schema))
    (required : List String) : List (String × Json) → List (String × Json)
  | [] => []
  | (name, value) :: rest =>
    match Table.find? name properties with
    | none => (name, value) :: entriesWithoutNulls document properties required rest
    | some schema =>
      if value.isNull = true ∧ name ∉ required then
        entriesWithoutNulls document properties required rest
      else
        (name, withoutNulls document schema value) ::
          entriesWithoutNulls document properties required rest

end

section Entries

variable {document : Document} {properties : List (String × Schema)} {required : List String}
  {entries : List (String × Json)} {name : String}

theorem itemsWithoutNulls_eq_map {schema : Schema} {items : List Json} :
    itemsWithoutNulls document schema items = items.map (document.withoutNulls schema) := by
  induction items with
  | nil => rfl
  | cons item rest ih => simp [itemsWithoutNulls, ih]

/-- What is left of the entries under the name of a property. -/
theorem mem_entriesWithoutNulls_iff {schema : Schema}
    (hfind : Table.find? name properties = some schema) {part : Json} :
    (name, part) ∈ entriesWithoutNulls document properties required entries ↔
      ∃ value, (name, value) ∈ entries ∧ ¬ (name ∉ required ∧ value = .null) ∧
        part = document.withoutNulls schema value := by
  induction entries with
  | nil => simp [entriesWithoutNulls]
  | cons entry rest ih =>
    obtain ⟨key, value⟩ := entry
    by_cases hkey : key = name
    · subst hkey
      simp only [entriesWithoutNulls, hfind, List.mem_cons, Prod.mk.injEq, true_and, or_and_right,
        exists_or, exists_eq_left]
      by_cases hdrop : key ∉ required ∧ value = .null
      · rw [if_pos ⟨Json.isNull_iff.2 hdrop.2, hdrop.1⟩, ih]
        exact (or_iff_right fun h => h.1 hdrop).symm
      · rw [if_neg fun h => hdrop ⟨h.2, Json.isNull_iff.1 h.1⟩, List.mem_cons, Prod.mk.injEq, ih]
        simp [hdrop]
    · have hne : ∀ part value : Json, (name, part) ≠ (key, value) := fun _ _ heq =>
        hkey (Prod.mk.inj heq).1.symm
      rw [entriesWithoutNulls]
      split
      · simp [ih, hne]
      · split_ifs <;> simp [ih, hne]

theorem forall_mem_entriesWithoutNulls_iff {schema : Schema}
    (hfind : Table.find? name properties = some schema) {before after : Json → Prop}
    (hpart : ∀ part, (name, part) ∈ entries →
      (before part ↔ after (document.withoutNulls schema part))) :
    (∀ part, (name, part) ∈ entriesWithoutNulls document properties required entries →
        after part) ↔
      ∀ part, (name, part) ∈ entries → before part ∨ name ∉ required ∧ part = .null := by
  simp only [mem_entriesWithoutNulls_iff hfind]
  constructor
  · intro h part hmem
    by_cases hdrop : name ∉ required ∧ part = .null
    · exact Or.inr hdrop
    · exact Or.inl ((hpart part hmem).2 (h _ ⟨part, hmem, hdrop, rfl⟩))
  · rintro h _ ⟨part, hmem, hkept, rfl⟩
    exact (hpart part hmem).1 ((h part hmem).resolve_right hkept)

theorem mem_keys_entriesWithoutNulls_iff (hrequired : name ∈ required) :
    name ∈ Table.keys (entriesWithoutNulls document properties required entries) ↔
      name ∈ Table.keys entries := by
  induction entries with
  | nil => rfl
  | cons entry rest ih =>
    obtain ⟨key, value⟩ := entry
    rw [entriesWithoutNulls]
    split
    · simp [ih]
    · split_ifs with hdrop
      · have hne : name ≠ key := fun heq => hdrop.2 (heq ▸ hrequired)
        simp [ih, hne]
      · simp [ih]

theorem find?_plainProperties {fields : List Field} (hnodup : (fields.map (·.name)).Nodup)
    {field : Field} (hfield : field ∈ fields) :
    Table.find? field.name (Schema.plainProperties fields) = some (.ofType field.type) := by
  rw [Table.find?_eq_some_iff (by rwa [Schema.keys_plainProperties])]
  exact List.mem_map_of_mem hfield

/-- An object under a definition with nulls, if it is known of the values of the fields. -/
theorem accepts_ofFields_addNulls_iff {formats : String → String → Prop}
    {nulls plain : String → Json → Prop} {fields : List Field}
    (hnodup : (fields.map (·.name)).Nodup)
    (hparts : ∀ field ∈ fields, ∀ part, (field.name, part) ∈ entries →
      ((Schema.ofType field.type).Accepts formats nulls part ↔
        (Schema.ofType field.type).Accepts formats plain
          (document.withoutNulls (.ofType field.type) part))) :
    (Schema.ofFields true fields).Accepts formats nulls (.object entries) ↔
      (Schema.ofFields false fields).Accepts formats plain
        (.object (entriesWithoutNulls document (Schema.plainProperties fields)
          (Model.requiredNames fields) entries)) := by
  rw [Schema.accepts_ofFields, Schema.accepts_ofFields]
  simp only [Json.object.injEq, exists_eq_left', Bool.false_eq_true, false_and, or_false, true_and]
  refine and_congr (forall₂_congr fun field hfield => ?_) (forall₂_congr fun name hname => ?_)
  · exact (forall_mem_entriesWithoutNulls_iff (find?_plainProperties hnodup hfield)
      (hparts field hfield)).symm
  · exact (mem_keys_entriesWithoutNulls_iff hname).symm

end Entries

variable {formats : String → String → Prop} {addDefaults : Bool} {models : List Model}
  {endpoints : List Endpoint}

theorem withoutNulls_scalar (document : Document) (kind : ScalarKind) (value : Json) :
    document.withoutNulls (.scalar kind false) value = value := by
  cases value <;> rfl

theorem withoutNulls_array_eq_iff {document : Document} {schema : Schema} {value : Json}
    {items : List Json} :
    document.withoutNulls (.array schema false) value = .array items ↔
      ∃ values, value = .array values ∧ items = values.map (document.withoutNulls schema) := by
  cases value <;> simp [withoutNulls, resolve, itemsWithoutNulls_eq_map, eq_comm]

theorem withoutNulls_model_eq_iff (hdistinct : Model.HaveDistinctNames models) {model : Model}
    (hmodel : model ∈ models) {value : Json} {entries : List (String × Json)} :
    (ofDeclarations ⟨addDefaults, false⟩ models endpoints).withoutNulls (.reference model.name)
        value = .object entries ↔
      ∃ entries', value = .object entries' ∧ entries =
        entriesWithoutNulls (ofDeclarations ⟨addDefaults, false⟩ models endpoints)
          (Schema.plainProperties (model.allFields addDefaults))
          (Model.requiredNames (model.allFields addDefaults)) entries' := by
  have hfind : (ofDeclarations ⟨addDefaults, false⟩ models endpoints).definitions.find?
      model.name = _ := find?_ofDeclarations_of_mem hdistinct hmodel
  rw [Schema.ofFields, Schema.map_widenOptional_false] at hfind
  cases value <;> simp [withoutNulls, resolve, hfind, eq_comm]

/-- **One value under one type**: nulls may be there exactly if it is valid when they are gone. -/
theorem accepts_addNulls_iff (hdistinct : Model.HaveDistinctNames models) (type : TypeRef)
    (value : Json) :
    (ofDeclarations ⟨addDefaults, true⟩ models endpoints).Accepts formats (.ofType type) value ↔
      (ofDeclarations ⟨addDefaults, false⟩ models endpoints).Accepts formats (.ofType type)
        ((ofDeclarations ⟨addDefaults, false⟩ models endpoints).withoutNulls (.ofType type)
          value) := by
  induction value using Json.inductionOnParts generalizing type with
  | step value hitems hentries =>
    cases type with
    | scalar kind =>
      rw [Schema.ofType_scalar, withoutNulls_scalar, Accepts, Accepts, Schema.accepts_scalar,
        Schema.accepts_scalar]
    | array item =>
      rw [Schema.ofType_array, Accepts, Accepts, Schema.accepts_array, Schema.accepts_array]
      simp only [withoutNulls_array_eq_iff, Bool.false_eq_true, false_and, or_false]
      constructor
      · rintro ⟨items, rfl, h⟩
        refine ⟨_, ⟨items, rfl, rfl⟩, List.forall_mem_map.2 fun part hpart => ?_⟩
        exact (hitems items rfl part hpart item).1 (h part hpart)
      · rintro ⟨_, ⟨items, rfl, rfl⟩, h⟩
        refine ⟨items, rfl, fun part hpart => ?_⟩
        exact (hitems items rfl part hpart item).2 (List.forall_mem_map.1 h part hpart)
    | model name =>
      rw [Schema.ofType_model, Accepts, Accepts, Schema.accepts_reference,
        Schema.accepts_reference]
      by_cases hname : ∃ model ∈ models, model.name = name
      · obtain ⟨model, hmodel, rfl⟩ := hname
        rw [isValid_model_iff hdistinct hmodel, isValid_model_iff hdistinct hmodel]
        have hobject := fun entries heq => accepts_ofFields_addNulls_iff
          (Model.nodup_names_allFields addDefaults (hdistinct.fieldNames model hmodel))
          fun field _ part hpart => hentries entries heq (field.name, part) hpart field.type
        constructor
        · intro h
          obtain ⟨entries, rfl, -⟩ := Schema.accepts_ofFields.1 h
          rw [(withoutNulls_model_eq_iff hdistinct hmodel).2 ⟨entries, rfl, rfl⟩]
          exact (hobject entries rfl).1 h
        · intro h
          obtain ⟨_, heq, -⟩ := Schema.accepts_ofFields.1 h
          rw [heq] at h
          obtain ⟨entries, rfl, rfl⟩ := (withoutNulls_model_eq_iff hdistinct hmodel).1 heq
          exact (hobject entries rfl).2 h
      · exact iff_of_false (fun h => hname (exists_model_of_isValid hdistinct h))
          fun h => hname (exists_model_of_isValid hdistinct h)

theorem isValid_addNulls (hdistinct : Model.HaveDistinctNames models) {name : String}
    {value : Json}
    (h : (ofDeclarations ⟨addDefaults, false⟩ models endpoints).IsValid formats name value) :
    (ofDeclarations ⟨addDefaults, true⟩ models endpoints).IsValid formats name value := by
  refine isValid_le (fun name value definition hfind haccepts => ?_) h
  obtain ⟨model, hmodel, rfl, rfl⟩ := (find?_ofDeclarations_eq_some_iff hdistinct).1 hfind
  obtain ⟨entries, rfl, hfields, hrequired⟩ := Schema.accepts_ofFields.1 haccepts
  refine (isValid_model_iff hdistinct hmodel).2 (Schema.accepts_ofFields.2 ⟨entries, rfl, ?_,
    hrequired⟩)
  intro field hfield part hpart
  exact (hfields field hfield part hpart).imp_right fun hnull => absurd hnull.1.1 (by simp)

end Document

/-- **What nulls add.** With and without nulls, texts compile alike, and a value is valid for a
model with nulls exactly if it is valid without them once the nulls of its optional properties are
gone. In particular, what is valid without nulls stays valid. -/
theorem compile_agree_withoutNulls (modelsText endpointsText : String) (addDefaults : Bool) :
    Except.Agree
      (fun nulls plain => ∀ formats model value,
        (nulls.IsValid formats model value ↔
          plain.IsValid formats model (plain.withoutNulls (.reference model) value)) ∧
        (plain.IsValid formats model value → nulls.IsValid formats model value))
      (compile modelsText endpointsText { addDefaults, addNulls := true })
      (compile modelsText endpointsText { addDefaults, addNulls := false }) := by
  refine compile_agree fun models endpoints hmodels formats model value => ?_
  have hdistinct := Model.haveDistinctNames_of_readAll hmodels
  refine ⟨?_, Document.isValid_addNulls hdistinct⟩
  have htype : (Document.ofDeclarations ⟨addDefaults, true⟩ models endpoints).Accepts formats
      (.ofType (.model model)) value ↔ _ := Document.accepts_addNulls_iff hdistinct _ value
  rwa [Schema.ofType_model, Document.Accepts, Document.Accepts, Schema.accepts_reference,
    Schema.accepts_reference] at htype

/-- A `null` in place of a model is valid with nulls, and not without them. -/
theorem compile_agree_withoutNulls_selfReferring :
    ∃ nulls plain, compile "A:\n  up: A\n" "" { addDefaults := false, addNulls := true } = .ok nulls ∧
      compile "A:\n  up: A\n" "" { addDefaults := false, addNulls := false } = .ok plain ∧
      ∀ formats, nulls.IsValid formats "A" (.object [("up", .null)]) ∧
        ¬ plain.IsValid formats "A" (.object [("up", .null)]) := by
  have hnulls : Specification.build "A:\n  up: A\n" "" ⟨false, true⟩ =
      .ok ⟨[("A", ⟨"A", 1, [⟨"up", 2, .model "A", false, true⟩]⟩)], [], ⟨false, true⟩⟩ := by
    decide +kernel
  have hplain : Specification.build "A:\n  up: A\n" "" ⟨false, false⟩ =
      .ok ⟨[("A", ⟨"A", 1, [⟨"up", 2, .model "A", false, false⟩]⟩)], [], ⟨false, false⟩⟩ := by
    decide +kernel
  have hcompiled := (compile_of_build hnulls).trans rfl
  have hcompiled' : compile "A:\n  up: A\n" "" ⟨false, false⟩ =
      .ok ⟨[], [("A", .object [("up", .reference "A")] [] false)]⟩ :=
    (compile_of_build hplain).trans rfl
  have hagree := compile_agree_withoutNulls "A:\n  up: A\n" "" false
  rw [hcompiled, hcompiled'] at hagree
  refine ⟨_, _, hcompiled, hcompiled', fun formats => ⟨(hagree formats "A" _).1.2 ?_, fun h => ?_⟩⟩
  · -- without its null the value is an object of nothing
    exact Document.isValid_iff.2
      ⟨_, rfl, Schema.accepts_object.2 (Or.inl ⟨[], rfl, by simp, by simp⟩)⟩
  · obtain ⟨_, hfind, haccepts⟩ := Document.isValid_iff.1 h
    cases hfind
    rcases Schema.accepts_object.1 haccepts with ⟨_, heq, hproperties, -⟩ | ⟨hnull, -⟩
    · cases heq
      have hup := Schema.accepts_reference.1 (hproperties _ List.mem_cons_self _ List.mem_cons_self)
      obtain ⟨_, hfind, haccepts⟩ := Document.isValid_iff.1 hup
      cases hfind
      rcases Schema.accepts_object.1 haccepts with ⟨_, heq, -⟩ | ⟨hnull, -⟩
      · cases heq
      · cases hnull
    · cases hnull

end ApiShorthand
