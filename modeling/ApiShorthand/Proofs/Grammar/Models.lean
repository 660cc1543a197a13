import ApiShorthand.Model
import ApiShorthand.Proofs.Grammar.Type
import ApiShorthand.Proofs.Line.Structural
import Mathlib.Data.List.Nodup

/-!
# The grammar of models texts

`ModelsText lines models` is the grammar: a header line, the lines of its fields, and so on. A
models text is accepted exactly if its structural lines are of this form, no two models share a
name, and no two fields of one model do (`ModelTable.ofString_eq_ok_iff_modelsText`).

The reader keeps the models in reverse, the one under construction first. One line keeps the
invariant that what was read is of the grammar (`Model.readLine_sound`), and each block of the
grammar takes the reader from one model to the next (`ModelsText.reads`).
-/

namespace ApiShorthand

open Text

namespace Grammar

/-- The text of a header: a name, white space, a colon. -/
structure ModelHeaderText (text name : List Char) : Prop where
  /-- The name is an identifier. -/
  identifier : IsIdentifier name
  /-- White space and a colon follow. -/
  eq_append : ∃ gap, IsBlankText gap ∧ text = name ++ (gap ++ [':'])

/-- The text of a field: a name, an asterisk if the field is required, white space, a colon, white
space, and a type. -/
structure FieldText (text name : List Char) (required : Bool) (type : TypeRef) : Prop where
  /-- The name is an identifier. -/
  identifier : IsIdentifier name
  /-- The other parts follow. -/
  eq_append : ∃ gap gap' token, IsBlankText gap ∧ IsBlankText gap' ∧ TypeToken token type ∧
    text = name ++ ((if required then ['*'] else []) ++ (gap ++ ':' :: (gap' ++ token)))

/-- A line at the margin that is a model header. -/
def IsModelHeader (line : NumberedLine) (name : List Char) : Prop :=
  ∃ text, IsIndented 0 text line.2 ∧ ModelHeaderText text name

/-- A line behind two spaces that declares a field. -/
def DeclaresField (line : NumberedLine) (field : Field) : Prop :=
  ∃ text name required type, IsIndented 1 text line.2 ∧ FieldText text name required type ∧
    field = { name := String.ofList name, line := line.1, type, required, nullable := false }

/-- Lines that declare models: a header, its fields, and the lines of the other models. -/
inductive ModelsText : List NumberedLine → List Model → Prop where
  /-- No lines declare no models. -/
  | nil : ModelsText [] []
  /-- A header and its field lines declare one more model. -/
  | model {header : NumberedLine} {body rest : List NumberedLine} {name : List Char}
      {fields : List Field} {models : List Model} (hheader : IsModelHeader header name)
      (hbody : List.Forall₂ DeclaresField body fields) (hrest : ModelsText rest models) :
      ModelsText (header :: (body ++ rest))
        ({ name := String.ofList name, line := header.1, fields } :: models)

end Grammar

open Grammar

namespace Model

/-! ### The parts of a line -/

theorem headerName?_eq_some_iff {text name : List Char} :
    headerName? text = some name ↔ ModelHeaderText text name := by
  have hcolon : ∀ c ∈ [':'].head?, isBlank c = false := by
    intro c hc
    cases Option.mem_some.1 hc
    decide
  unfold headerName?
  rw [Option.bind_eq_bind, Option.bind_eq_some_iff]
  constructor
  · rintro ⟨⟨first, rest⟩, htake, h⟩
    dsimp only at h
    split at h
    · rename_i hrest
      cases h
      obtain ⟨hname, -, rfl⟩ := takeName?_eq_some_iff.1 htake
      refine ⟨hname, indentation rest, isBlankText_indentation rest, ?_⟩
      rw [← hrest, indentation_append_trimStart]
    · cases h
  · rintro ⟨hname, gap, hgap, rfl⟩
    refine ⟨(name, gap ++ [':']), takeName?_eq_some_iff.2 ⟨hname, ?_, rfl⟩, ?_⟩
    -- the name ends where white space or the colon stands
    · intro c hc
      rcases hgap.head_append c hc with hblank | hcolon
      · exact isNamePart_of_isBlank hblank
      · cases Option.mem_some.1 hcolon
        decide
    · dsimp only
      rw [trimStart_append hgap, trimStart_eq_self hcolon, if_pos rfl]

theorem takeAsterisk_append {required : Bool} {rest : List Char} (h : rest.head? ≠ some '*') :
    takeAsterisk ((if required then ['*'] else []) ++ rest) = (required, rest) := by
  cases required with
  | true => rfl
  | false =>
    show takeAsterisk rest = (false, rest)
    unfold takeAsterisk
    split
    · exact absurd rfl h
    · rfl

theorem append_of_takeAsterisk {text rest : List Char} {required : Bool}
    (h : takeAsterisk text = (required, rest)) :
    text = (if required then ['*'] else []) ++ rest := by
  unfold takeAsterisk at h
  split at h
  · cases h
    rfl
  · cases h
    rfl

theorem afterColon?_eq_some_iff {text token : List Char} :
    afterColon? text = some token ↔ token ≠ [] ∧ (∀ c ∈ token.head?, isBlank c = false) ∧
      ∃ gap, IsBlankText gap ∧ text = ':' :: (gap ++ token) := by
  constructor
  · intro h
    unfold afterColon? at h
    split at h
    · rename_i rest
      split at h
      · cases h
      · rename_i hne
        cases h
        exact ⟨hne, head_trimStart rest, indentation rest, isBlankText_indentation rest,
          by rw [indentation_append_trimStart]⟩
    · cases h
  · rintro ⟨hne, hhead, gap, hgap, rfl⟩
    rw [afterColon?, trimStart_append hgap, trimStart_eq_self hhead]
    cases token with
    | nil => exact absurd rfl hne
    | cons c token => rfl

/-- The parts of a field line, in the form in which the reader takes them. -/
theorem fieldParts?_eq_some_iff {text : List Char} {parts : FieldParts} :
    fieldParts? text = some parts ↔ IsIdentifier parts.name ∧ parts.token ≠ [] ∧
      (∀ c ∈ parts.token.head?, isBlank c = false) ∧
      ∃ gap gap', IsBlankText gap ∧ IsBlankText gap' ∧ text = parts.name ++
        ((if parts.required then ['*'] else []) ++ (gap ++ ':' :: (gap' ++ parts.token))) := by
  obtain ⟨name, required, token⟩ := parts
  unfold fieldParts?
  rw [Option.bind_eq_bind, Option.bind_eq_some_iff]
  constructor
  · rintro ⟨⟨first, rest⟩, htake, h⟩
    obtain ⟨hname, -, rfl⟩ := takeName?_eq_some_iff.1 htake
    cases hasterisk : takeAsterisk rest with
    | mk asterisk behind =>
      dsimp only at h
      rw [hasterisk, Option.bind_eq_bind, Option.bind_eq_some_iff] at h
      obtain ⟨token', hcolon, h⟩ := h
      cases h
      obtain ⟨hne, hhead, gap', hgap', hbehind⟩ := afterColon?_eq_some_iff.1 hcolon
      refine ⟨hname, hne, hhead, indentation behind, gap', isBlankText_indentation behind, hgap',
        ?_⟩
      dsimp only
      rw [append_of_takeAsterisk hasterisk, ← hbehind, indentation_append_trimStart]
  · rintro ⟨hname, hne, hhead, gap, gap', hgap, hgap', rfl⟩
    -- what follows the asterisk neither goes on with the name nor is a second asterisk
    have hpart : ∀ c ∈ (gap ++ ':' :: (gap' ++ token)).head?, isNamePart c = false ∧ c ≠ '*' := by
      intro c hc
      rcases hgap.head_append c hc with hblank | hcolon
      · refine ⟨isNamePart_of_isBlank hblank, ?_⟩
        rintro rfl
        exact absurd hblank (by decide)
      · cases Option.mem_some.1 hcolon
        decide
    have hasterisk : takeAsterisk _ = (required, gap ++ ':' :: (gap' ++ token)) :=
      takeAsterisk_append fun h => (hpart '*' h).2 rfl
    refine ⟨_, takeName?_eq_some_iff.2 ⟨hname, ?_, rfl⟩, ?_⟩
    · intro c hc
      cases required with
      | true =>
        cases Option.mem_some.1 hc
        decide
      | false => exact (hpart c hc).1
    · have hcolon : trimStart (':' :: (gap' ++ token)) = ':' :: (gap' ++ token) :=
        trimStart_cons_of_not_isBlank (by decide)
      dsimp only
      rw [hasterisk]
      dsimp only
      rw [trimStart_append hgap, hcolon, afterColon?_eq_some_iff.2 ⟨hne, hhead, gap', hgap', rfl⟩]
      rfl

theorem isSome_field?_iff {model : Model} {name : String} :
    (model.field? name).isSome = true ↔ name ∈ model.fields.map (·.name) := by
  rw [field?, List.find?_isSome, List.mem_map]
  constructor
  · rintro ⟨field, hfield, hname⟩
    exact ⟨field, hfield, beq_iff_eq.1 hname⟩
  · rintro ⟨field, hfield, hname⟩
    exact ⟨field, hfield, beq_iff_eq.2 hname⟩

/-- A line adds a field exactly if it is the text of one that the model does not have yet. -/
theorem readField_eq_ok_iff {model model' : Model} {line : Line} :
    model.readField line = .ok model' ↔ ∃ name required type,
      FieldText line.text.toList name required type ∧
      String.ofList name ∉ model.fields.map (·.name) ∧
      model' = { model with
        fields := model.fields ++ [{ name := String.ofList name, line := line.number, type, required,
                                     nullable := false }] } := by
  unfold readField
  constructor
  · intro h
    split at h
    · rename_i parts hparts
      obtain ⟨hname, -, -, gap, gap', hgap, hgap', htext⟩ := fieldParts?_eq_some_iff.1 hparts
      dsimp only at h
      split_ifs at h with hrepeated
      · cases h
      · split at h
        · cases h
        · rename_i type htype
          cases h
          rw [isSome_field?_iff] at hrepeated
          exact ⟨parts.name, parts.required, type,
            ⟨hname, gap, gap', parts.token, hgap, hgap', TypeRef.read_eq_ok_iff.1 htype, htext⟩,
            hrepeated, rfl⟩
    · cases h
  · rintro ⟨name, required, type, ⟨hname, gap, gap', token, hgap, hgap', htoken, htext⟩, hnew, rfl⟩
    have hparts : fieldParts? line.text.toList = some { name, required, token } :=
      fieldParts?_eq_some_iff.2
        ⟨hname, htoken.ne_nil, htoken.isTrimmed.head, gap, gap', hgap, hgap', htext⟩
    rw [← isSome_field?_iff] at hnew
    rw [hparts]
    dsimp only
    rw [if_neg hnew, TypeRef.read_eq_ok_iff.2 htoken]
    rfl

/-! ### One line -/

theorem readLine_of_nested (models : List Model) {line : Line} (h : 1 < line.depth) :
    readLine models line = .error (line.fault .nestedLine) := by
  unfold readLine
  exact if_pos h

theorem readLine_of_header (models : List Model) {line : Line} (hdepth : line.depth ≤ 1)
    (hkind : line.kind = .header) :
    readLine models line =
      match headerName? line.text.toList with
      | some name =>
        if models.any (·.name == String.ofList name) then
          .error (.duplicateModel (String.ofList name))
        else .ok ({ name := String.ofList name, line := line.number, fields := [] } :: models)
      | none => .error (line.fault .modelHeaderExpected) := by
  unfold readLine
  refine (if_neg (not_lt.2 hdepth)).trans ((if_pos hkind).trans ?_)
  cases headerName? line.text.toList with
  | none => rfl
  | some name => rfl

theorem readLine_of_field (models : List Model) {line : Line} (hdepth : line.depth ≤ 1)
    (hkind : line.kind ≠ .header) :
    readLine models line =
      match models with
      | [] => .error (line.fault .fieldOutsideModel)
      | model :: earlier => (model.readField line).map (· :: earlier) := by
  unfold readLine
  refine (if_neg (not_lt.2 hdepth)).trans ((if_neg hkind).trans ?_)
  cases models with
  | nil => rfl
  | cons model earlier => cases model.readField line <;> rfl

theorem depth_le_of_readLine {models models' : List Model} {line : Line}
    (h : readLine models line = .ok models') : line.depth ≤ 1 := by
  by_contra hdepth
  rw [readLine_of_nested models (not_le.1 hdepth)] at h
  cases h

theorem any_name_iff {models : List Model} {name : String} :
    models.any (·.name == name) = true ↔ name ∈ models.map (·.name) := by
  rw [List.any_eq_true, List.mem_map]
  exact exists_congr fun model => and_congr_right fun _ => beq_iff_eq

/-- **One line of a models text**: a header starts a model of a new name, and a field line adds a
field of a new name to the last model. -/
theorem readLine_eq_ok_iff {models models' : List Model} {number depth : Nat}
    {text : List Char} :
    readLine models (.structural number depth text) = .ok models' ↔
      (depth = 0 ∧ ∃ name, ModelHeaderText text name ∧ String.ofList name ∉ models.map (·.name) ∧
        models' = { name := String.ofList name, line := number, fields := [] } :: models) ∨
      (depth = 1 ∧ ∃ model earlier model', models = model :: earlier ∧
        model.readField (.structural number depth text) = .ok model' ∧
        models' = model' :: earlier) := by
  have hkind : (Line.structural number depth text).kind = .header ↔ depth = 0 :=
    Line.structural_kind_eq_header_iff
  constructor
  · intro h
    have hdepth : depth ≤ 1 := depth_le_of_readLine h
    by_cases hzero : depth = 0
    · left
      rw [readLine_of_header models hdepth (hkind.2 hzero), Line.toList_structural_text] at h
      refine ⟨hzero, ?_⟩
      split at h
      · rename_i name hname
        split_ifs at h with hrepeated
        cases h
        rw [any_name_iff] at hrepeated
        exact ⟨name, headerName?_eq_some_iff.1 hname, hrepeated, rfl⟩
      · cases h
    · right
      rw [readLine_of_field models hdepth (hkind.not.2 hzero)] at h
      refine ⟨by omega, ?_⟩
      cases models with
      | nil => cases h
      | cons model earlier =>
        obtain ⟨model', hmodel, rfl⟩ := Except.map_eq_ok_iff.1 h
        exact ⟨model, earlier, model', rfl, hmodel, rfl⟩
  · rintro (⟨rfl, name, hheader, hnew, rfl⟩ | ⟨rfl, model, earlier, model', rfl, hmodel, rfl⟩)
    · rw [← any_name_iff] at hnew
      rw [readLine_of_header models (Nat.zero_le 1) (hkind.2 rfl), Line.toList_structural_text,
        headerName?_eq_some_iff.2 hheader]
      exact if_neg hnew
    · rw [readLine_of_field _ (le_refl 1) (hkind.not.2 Nat.one_ne_zero)]
      exact Except.map_eq_ok_iff.2 ⟨model', hmodel, rfl⟩

end Model

/-! ### Soundness -/

namespace Grammar

/-- A header line behind the lines of models starts one more model. -/
theorem ModelsText.concat_header {lines : List NumberedLine} {models : List Model}
    (h : ModelsText lines models) {line : NumberedLine} {name : List Char}
    (hline : IsModelHeader line name) :
    ModelsText (lines ++ [line])
      (models ++ [{ name := String.ofList name, line := line.1, fields := [] }]) := by
  induction h with
  | nil =>
    show ModelsText (line :: ([] ++ [])) _
    exact .model hline .nil .nil
  | model hheader hbody hrest ih =>
    rw [List.cons_append, List.append_assoc]
    exact .model hheader hbody ih

/-- A field line behind the lines of models belongs to the last model. -/
theorem ModelsText.concat_field {lines : List NumberedLine} {models : List Model} {model : Model}
    (h : ModelsText lines (models ++ [model])) {line : NumberedLine} {field : Field}
    (hline : DeclaresField line field) :
    ModelsText (lines ++ [line])
      (models ++ [{ model with fields := model.fields ++ [field] }]) := by
  induction models generalizing lines with
  | nil =>
    cases h with
    | model hheader hbody hrest =>
      -- nothing follows the last model, so the line goes to the end of its body
      cases hrest
      rw [List.append_nil, List.cons_append, ← List.append_nil (_ ++ [line])]
      exact .model hheader (List.rel_append hbody (.cons hline .nil)) .nil
  | cons first models ih =>
    cases h with
    | model hheader hbody hrest =>
      rw [List.cons_append, List.append_assoc]
      exact .model hheader hbody (ih hrest)

end Grammar

namespace Model

/-- No two models share a name, and no two fields of one model do. -/
structure HaveDistinctNames (models : List Model) : Prop where
  /-- The names of the models are distinct. -/
  modelNames : (models.map (·.name)).Nodup
  /-- The names of the fields of each model are distinct. -/
  fieldNames : ∀ model ∈ models, (model.fields.map (·.name)).Nodup

theorem haveDistinctNames_reverse {models : List Model} :
    HaveDistinctNames models.reverse ↔ HaveDistinctNames models := by
  constructor
  · rintro ⟨hmodels, hfields⟩
    rw [List.map_reverse, List.nodup_reverse] at hmodels
    exact ⟨hmodels, fun model hmodel => hfields model (List.mem_reverse.2 hmodel)⟩
  · rintro ⟨hmodels, hfields⟩
    refine ⟨?_, fun model hmodel => hfields model (List.mem_reverse.1 hmodel)⟩
    rwa [List.map_reverse, List.nodup_reverse]

/-- The invariant of reading: the lines read so far are of the grammar and declare the models, last
one first, and names are distinct. -/
structure HasRead (lines : List NumberedLine) (models : List Model) : Prop where
  /-- The lines declare the models. -/
  grammar : ModelsText lines models.reverse
  /-- No name was met twice. -/
  distinct : HaveDistinctNames models

/-- A new field at the end of the last model. -/
theorem HaveDistinctNames.addField {model : Model} {earlier : List Model} {field : Field}
    (h : HaveDistinctNames (model :: earlier)) (hnew : field.name ∉ model.fields.map (·.name)) :
    HaveDistinctNames ({ model with fields := model.fields ++ [field] } :: earlier) where
  modelNames := h.modelNames
  fieldNames := by
    rw [List.forall_mem_cons]
    refine ⟨?_, fun other hother => h.fieldNames other (List.mem_cons_of_mem model hother)⟩
    rw [List.map_append, List.map_singleton, ← List.concat_eq_append, List.nodup_concat]
    exact ⟨hnew, h.fieldNames model List.mem_cons_self⟩

/-- One line keeps the invariant. -/
theorem readLine_sound {lines : List NumberedLine} {models models' : List Model}
    {number depth : Nat} {text raw : List Char} (h : HasRead lines models)
    (hraw : IsIndented depth text raw)
    (hok : readLine models (.structural number depth text) = .ok models') :
    HasRead (lines ++ [(number, raw)]) models' := by
  rcases readLine_eq_ok_iff.1 hok with
    ⟨rfl, name, hheader, hnew, rfl⟩ | ⟨rfl, model, earlier, model', rfl, hmodel, rfl⟩
  · refine ⟨?_, List.nodup_cons.2 ⟨hnew, h.distinct.modelNames⟩, ?_⟩
    · rw [List.reverse_cons]
      exact h.grammar.concat_header ⟨text, hraw, hheader⟩
    · rw [List.forall_mem_cons]
      exact ⟨List.nodup_nil, h.distinct.fieldNames⟩
  · obtain ⟨name, required, type, hfield, hnew, rfl⟩ := readField_eq_ok_iff.1 hmodel
    rw [Line.toList_structural_text] at hfield
    refine ⟨?_, h.distinct.addField hnew⟩
    have hgrammar := h.grammar
    rw [List.reverse_cons] at hgrammar ⊢
    exact hgrammar.concat_field ⟨text, name, required, type, hraw, hfield, rfl⟩

/-- **Soundness**: lines that are read without a fault are of the grammar. -/
theorem hasRead_of_reads {lines : List NumberedLine} {models : List Model}
    (h : Reads readLine [] lines models) : HasRead lines models :=
  h.preserves (fun _ _ _ _ _ _ _ hread hraw hok => readLine_sound hread hraw hok) []
    ⟨.nil, List.nodup_nil, nofun⟩

end Model

/-! ### Completeness -/

namespace Grammar

/-- The reader takes the field lines of the last model, if its fields have distinct names. -/
theorem reads_body {body : List NumberedLine} {fields : List Field}
    (h : List.Forall₂ DeclaresField body fields) (model : Model) (earlier : List Model)
    (hdistinct : ((model.fields ++ fields).map (·.name)).Nodup) :
    Reads Model.readLine (model :: earlier) body
      ({ model with fields := model.fields ++ fields } :: earlier) := by
  induction h generalizing model with
  | nil =>
    rw [List.append_nil]
    exact .nil
  | @cons line field body fields hline hbody ih =>
    obtain ⟨text, name, required, type, hraw, hfield, rfl⟩ := hline
    -- the field moves from the lines that are left to the model
    rw [List.append_cons] at hdistinct ⊢
    have hnew : String.ofList name ∉ model.fields.map (·.name) := by
      rw [List.map_append, List.map_append, List.map_singleton] at hdistinct
      have hfirst := hdistinct.of_append_left
      rw [← List.concat_eq_append, List.nodup_concat] at hfirst
      exact hfirst.1
    refine .cons hraw ?_ (ih { model with fields := model.fields ++ [_] } hdistinct)
    refine Model.readLine_eq_ok_iff.2 (Or.inr ⟨rfl, model, earlier, _, rfl, ?_, rfl⟩)
    refine Model.readField_eq_ok_iff.2 ⟨name, required, type, ?_, hnew, rfl⟩
    rwa [Line.toList_structural_text]

/-- **Completeness**: lines of the grammar are read, behind models of other names. -/
theorem ModelsText.reads {lines : List NumberedLine} {models : List Model}
    (h : ModelsText lines models) (earlier : List Model)
    (hdistinct : Model.HaveDistinctNames (models.reverse ++ earlier)) :
    Reads Model.readLine earlier lines (models.reverse ++ earlier) := by
  induction h generalizing earlier with
  | nil => exact .nil
  | @model header body rest name fields models hheader hbody hrest ih =>
    obtain ⟨text, hraw, hname⟩ := hheader
    -- the models that follow are read behind this one, which is then an earlier one
    rw [List.reverse_cons, List.append_assoc, List.singleton_append] at hdistinct ⊢
    have hnew : String.ofList name ∉ earlier.map (·.name) := by
      have hnodup := hdistinct.modelNames
      rw [List.map_append, List.map_cons] at hnodup
      exact (List.nodup_cons.1 hnodup.of_append_right).1
    have hfields : (fields.map (·.name)).Nodup :=
      hdistinct.fieldNames _ (List.mem_append_right _ List.mem_cons_self)
    refine .cons hraw (Model.readLine_eq_ok_iff.2 (Or.inl ⟨rfl, name, hname, hnew, rfl⟩)) ?_
    have hbody' := reads_body hbody
      { name := String.ofList name, line := header.1, fields := [] } earlier hfields
    exact hbody'.append (ih _ hdistinct)

end Grammar

namespace Model

/-- The models of a text are what reading its structural lines one by one gives. -/
theorem readAll_eq_ok_iff_reads {text : String} {models : List Model} :
    readAll text = .ok models ↔
      ∃ lines, HasLines text lines ∧ Reads readLine [] lines models.reverse :=
  reverse_foldlM_tokenize_eq_ok_iff (fun _ _ _ => depth_le_of_readLine) text models

theorem haveDistinctNames_of_readAll {text : String} {models : List Model}
    (h : readAll text = .ok models) : HaveDistinctNames models := by
  obtain ⟨lines, -, hreads⟩ := readAll_eq_ok_iff_reads.1 h
  exact haveDistinctNames_reverse.1 (hasRead_of_reads hreads).distinct

end Model

/-- **The models texts that are accepted, and their tables**: the lines of the text that are neither
blank nor comments are headers, each with its field lines; the names of the models are distinct, and
so are the names of the fields of each model; the table has the models in order, each under its own
name. -/
theorem ModelTable.ofString_eq_ok_iff_modelsText (text : String) (table : ModelTable) :
    ModelTable.ofString text = .ok table ↔
      ∃ lines models, HasLines text lines ∧ ModelsText lines models ∧
        Model.HaveDistinctNames models ∧ table = models.map fun model => (model.name, model) := by
  constructor
  · intro h
    obtain ⟨models, hmodels, hok⟩ := Except.bind_eq_ok_iff.1 h
    cases hok
    obtain ⟨lines, hlines, hreads⟩ := Model.readAll_eq_ok_iff_reads.1 hmodels
    have hread := Model.hasRead_of_reads hreads
    have hgrammar := hread.grammar
    rw [List.reverse_reverse] at hgrammar
    exact ⟨lines, models, hlines, hgrammar, Model.haveDistinctNames_reverse.1 hread.distinct, rfl⟩
  · rintro ⟨lines, models, hlines, hgrammar, hdistinct, rfl⟩
    have hreads : Reads Model.readLine [] lines models.reverse := by
      rw [← List.append_nil models.reverse]
      apply hgrammar.reads
      rw [List.append_nil]
      exact Model.haveDistinctNames_reverse.2 hdistinct
    exact Except.bind_eq_ok_iff.2
      ⟨models, Model.readAll_eq_ok_iff_reads.2 ⟨lines, hlines, hreads⟩, rfl⟩

/-- Comments, white space and both kinds of line ends. -/
example : ModelTable.ofString "// people\nUser:\n  id*: [ Team ]\r\nTeam :" = .ok
    [("User", ⟨"User", 2, [⟨"id", 3, .array (.model "Team"), true, false⟩]⟩),
      ("Team", ⟨"Team", 4, []⟩)] := by
  decide +kernel

end ApiShorthand
