import ApiShorthand.Proofs.Grammar.Endpoints
import ApiShorthand.Proofs.Grammar.Models
import ApiShorthand.Proofs.Line.FirstLines

/-!
# The first fault of a text

Models texts and endpoints texts are read in order (`readers_readInOrder`). What is left to show is
what each reader does with one line: which fault it gives (`ModelTable.Blames`, `Endpoint.Blames`),
and that it starts a new item or adds to the last one.
-/

namespace ApiShorthand

open Text Grammar

/-! ### Items cut short -/

section Items

variable {α : Type} {cut : α → α → Prop} {items whole : List α} {item item' : α}

/-- Items are others cut short: the later ones are left out, and the last one is cut. -/
def IsCutShort (cut : α → α → Prop) (items whole : List α) : Prop :=
  items = [] ∨ ∃ before item item' after,
    items = before ++ [item] ∧ whole = before ++ item' :: after ∧ cut item item'

theorem isCutShort_refl (hcut : ∀ item, cut item item) (items : List α) :
    IsCutShort cut items items := by
  rcases List.eq_nil_or_concat items with rfl | ⟨before, item, rfl⟩
  · exact Or.inl rfl
  · rw [List.concat_eq_append]
    exact Or.inr ⟨before, item, item, [], rfl, rfl, hcut item⟩

theorem IsCutShort.concat (h : IsCutShort cut items whole) (item : α) :
    IsCutShort cut items (whole ++ [item]) := by
  rcases h with hnil | ⟨before, first, first', after, hitems, rfl, hfirst⟩
  · exact Or.inl hnil
  · exact Or.inr ⟨before, first, first', after ++ [item], hitems, by simp, hfirst⟩

/-- The last item may go on, since what is cut off it gets longer. -/
theorem IsCutShort.replaceLast (h : IsCutShort cut items (whole ++ [item]))
    (hcut : ∀ first, cut first item → cut first item') :
    IsCutShort cut items (whole ++ [item']) := by
  rcases h with hnil | ⟨before, first, first', after, hitems, hwhole, hfirst⟩
  · exact Or.inl hnil
  · refine Or.inr ?_
    rcases List.eq_nil_or_concat after with rfl | ⟨after, last, rfl⟩
    · obtain ⟨rfl, hlast⟩ := List.append_inj' hwhole rfl
      cases hlast
      exact ⟨whole, first, item', [], hitems, rfl, hcut first hfirst⟩
    · rw [List.concat_eq_append, ← List.cons_append, ← List.append_assoc] at hwhole
      obtain ⟨rfl, -⟩ := List.append_inj' hwhole rfl
      exact ⟨before, first, first', after ++ [item'], hitems, by simp, hfirst⟩

end Items

/-- A word is the first one of a line. -/
def IsFirstWord (word raw : List Char) : Prop :=
  ∃ gap rest, IsBlankText gap ∧ IsWord word ∧ EndsWord rest ∧ raw = gap ++ (word ++ rest)

theorem isFirstWord_of_words {depth : Nat} {text raw word : List Char} {others : List (List Char)}
    (hraw : IsIndented depth text raw) (hwords : words text = word :: others) :
    IsFirstWord word raw := by
  obtain ⟨after, hafter, rfl⟩ := hraw.eq_append
  obtain ⟨gap, rest, hgap, hword, hrest, rfl, -⟩ := words_eq_cons_iff.1 hwords
  refine ⟨List.replicate (2 * depth) ' ' ++ gap, rest ++ after,
    isBlankText_append.2 ⟨isBlankText_replicate_space _, hgap⟩, hword, ?_, by simp⟩
  -- where the text ends with the word, white space or nothing follows
  intro c hc
  cases rest with
  | nil => exact hafter c (List.mem_of_mem_head? hc)
  | cons d rest => exact hrest c hc

/-! ### Models -/

namespace Model

theorem readField_eq_error {model : Model} {line : Line} {fault : Fault}
    (h : model.readField line = .error fault) : ∃ problem, fault = line.fault problem := by
  unfold readField at h
  split at h
  · dsimp only at h
    split_ifs at h
    · cases h
      exact ⟨_, rfl⟩
    · split at h <;> cases h
      exact ⟨_, rfl⟩
  · cases h
    exact ⟨_, rfl⟩

theorem readLine_eq_error {models : List Model} {number depth : Nat} {text : List Char}
    {fault : Fault} (h : readLine models (.structural number depth text) = .error fault) :
    (∃ problem, fault = .line problem number (String.ofList text)) ∨
      depth = 0 ∧ ∃ name, ModelHeaderText text name ∧ String.ofList name ∈ models.map (·.name) ∧
        fault = .duplicateModel (String.ofList name) := by
  by_cases hdepth : depth ≤ 1
  · by_cases hzero : depth = 0
    · rw [readLine_of_header models hdepth (Line.structural_kind_eq_header_iff.2 hzero),
        Line.toList_structural_text] at h
      split at h
      · rename_i name hname
        split_ifs at h with hrepeated
        cases h
        exact Or.inr ⟨hzero, name, headerName?_eq_some_iff.1 hname, any_name_iff.1 hrepeated, rfl⟩
      · cases h
        exact Or.inl ⟨_, rfl⟩
    · left
      rw [readLine_of_field models hdepth (Line.structural_kind_eq_header_iff.not.2 hzero)] at h
      cases models with
      | nil =>
        cases h
        exact ⟨_, rfl⟩
      | cons model earlier => exact readField_eq_error (Except.map_eq_error_iff.1 h)
  · rw [readLine_of_nested models (not_le.1 hdepth)] at h
    cases h
    exact Or.inl ⟨_, rfl⟩

/-- A model is another one cut short: it has the first of its fields. -/
structure IsCut (model whole : Model) : Prop where
  /-- It has the same name. -/
  name : model.name = whole.name
  /-- It stands on the same line. -/
  line : model.line = whole.line
  /-- Its fields are the first ones. -/
  fields : model.fields <+: whole.fields

theorem isCut_of_readField {first model model' : Model} {line : Line} (h : IsCut first model)
    (hok : model.readField line = .ok model') : IsCut first model' := by
  obtain ⟨name, required, type, -, -, rfl⟩ := readField_eq_ok_iff.1 hok
  exact ⟨h.name, h.line, h.fields.trans (List.prefix_append _ _)⟩

end Model

namespace ModelTable

/-- What the fault of a line is, behind the lines that gave a table. -/
inductive Blames (table : ModelTable) (line : NumberedLine) : Fault → Prop where
  /-- The fault tells the number and the text of the line. -/
  | line (problem : LineProblem) :
      Blames table line (.line problem line.1 (String.ofList (trim line.2)))
  /-- The line is the header of a model that the table has. -/
  | duplicateModel {name : List Char} (hheader : IsModelHeader line name)
      (hmem : String.ofList name ∈ table.keys) :
      Blames table line (.duplicateModel (String.ofList name))

/-- A table is another one cut short. -/
def IsCut (table whole : ModelTable) : Prop :=
  IsCutShort (fun entry entry' => entry.1 = entry'.1 ∧ entry.2.IsCut entry'.2) table whole

theorem ofModels_concat (models : List Model) (model : Model) :
    ofModels (models ++ [model]) = ofModels models ++ [(model.name, model)] := by
  simp [ofModels]

theorem ofString_eq_readWith :
    ofString = readWith Model.readLine [] fun models => ofModels models.reverse := by
  funext text
  rw [ofString, Model.readAll]
  show _ = ((tokenize text).foldlM Model.readItem []).map _
  cases (tokenize text).foldlM Model.readItem [] <;> rfl

theorem readsInOrder : ReadsInOrder ofString Blames IsCut := by
  rw [ofString_eq_readWith]
  refine readsInOrder_readWith (fun _ _ _ problem => .line problem) ?_ (fun models => ?_) ?_
  · intro models number depth text raw fault hraw hfault
    rcases Model.readLine_eq_error hfault with ⟨problem, rfl⟩ | ⟨rfl, name, hheader, hmem, rfl⟩
    · rw [← hraw.trim_eq]
      exact .line problem
    · refine .duplicateModel ⟨text, hraw, hheader⟩ ?_
      simpa [Table.keys, ofModels] using hmem
  · exact isCutShort_refl (fun entry => ⟨rfl, rfl, rfl, List.prefix_rfl⟩) _
  · intro models models' number depth text raw models'' hcut hraw hok
    rcases Model.readLine_eq_ok_iff.1 hok with
      ⟨-, name, -, -, rfl⟩ | ⟨-, model, earlier, model', rfl, hmodel, rfl⟩
    · rw [List.reverse_cons, ofModels_concat]
      exact hcut.concat _
    · rw [List.reverse_cons, ofModels_concat] at hcut ⊢
      refine hcut.replaceLast fun first hfirst => ?_
      have hmodel' := Model.isCut_of_readField hfirst.2 hmodel
      exact ⟨hfirst.1.trans (hfirst.2.name.symm.trans hmodel'.name), hmodel'⟩

end ModelTable

/-! ### Endpoints -/

namespace Endpoint

theorem readType_eq_error {line : Line} {token : List Char} {fault : Fault}
    (h : readType line token = .error fault) : ∃ problem, fault = line.fault problem := by
  unfold readType at h
  split at h <;> cases h
  exact ⟨_, rfl⟩

theorem fill_eq_error {slot : Option TypeRef} {line : Line} {token : List Char}
    {problem : LineProblem} {f : TypeRef → Endpoint} {fault : Fault}
    (h : (if slot.isSome then .error (line.fault problem) else (readType line token).map f) =
      .error fault) : ∃ problem, fault = line.fault problem := by
  split_ifs at h
  · cases h
    exact ⟨problem, rfl⟩
  · exact readType_eq_error (Except.map_eq_error_iff.1 h)

theorem readBody_eq_error {endpoint : Endpoint} {line : Line} {fault : Fault}
    (h : endpoint.readBody line = .error fault) : ∃ problem, fault = line.fault problem := by
  cases harrow : responseToken? line.text.toList with
  | some token =>
    rw [readBody_of_response endpoint harrow] at h
    exact fill_eq_error h
  | none =>
    rw [readBody_of_request endpoint harrow] at h
    exact fill_eq_error h

theorem readHeader_eq_error {line : Line} {fault : Fault} (h : readHeader line = .error fault) :
    (∃ problem, fault = line.fault problem) ∨ ∃ word others,
      words line.text.toList = word :: others ∧ Method.ofWord? word = none ∧
        fault = .unknownMethod (String.ofList word) := by
  unfold readHeader at h
  split at h
  · cases h
    exact Or.inl ⟨_, rfl⟩
  · rename_i word others hwords
    split at h
    · rename_i hmethod
      cases h
      exact Or.inr ⟨word, others, hwords, hmethod, rfl⟩
    · left
      split at h
      · split_ifs at h
        cases h
        exact ⟨_, rfl⟩
      · cases h
        exact ⟨_, rfl⟩

theorem readLine_eq_error {endpoints : List Endpoint} {number depth : Nat} {text : List Char}
    {fault : Fault} (htext : IsTrimmed text)
    (h : readLine endpoints (.structural number depth text) = .error fault) :
    (∃ problem, fault = .line problem number (String.ofList text)) ∨
      (depth = 0 ∧ ∃ method path, EndpointHeaderText text method path ∧
        (method, String.ofList path) ∈ endpoints.map operation ∧
        fault = .duplicateEndpoint method (String.ofList path)) ∨
      ∃ word others, words text = word :: others ∧ Method.ofWord? word = none ∧
        fault = .unknownMethod (String.ofList word) := by
  by_cases hdepth : depth ≤ 1
  · by_cases hzero : depth = 0
    · rw [readLine_of_header endpoints hdepth (Line.structural_kind_eq_header_iff.2 hzero)] at h
      split at h
      · rename_i endpoint hendpoint
        obtain ⟨method, path, hheader, rfl⟩ := (readHeader_eq_ok_iff htext).1 hendpoint
        split_ifs at h with hrepeated
        cases h
        exact Or.inr (Or.inl ⟨hzero, method, path, hheader, any_sameOperation_iff.1 hrepeated, rfl⟩)
      · rename_i hheader
        cases h
        refine (readHeader_eq_error hheader).imp_right fun hunknown => Or.inr ?_
        rwa [Line.toList_structural_text] at hunknown
    · left
      rw [readLine_of_body endpoints hdepth (Line.structural_kind_eq_header_iff.not.2 hzero)] at h
      cases endpoints with
      | nil =>
        cases h
        exact ⟨_, rfl⟩
      | cons endpoint earlier => exact readBody_eq_error (Except.map_eq_error_iff.1 h)
  · rw [readLine_of_nested endpoints (not_le.1 hdepth)] at h
    cases h
    exact Or.inl ⟨_, rfl⟩

/-- An endpoint is another one cut short: each of its bodies is missing or the same. -/
structure IsCut (endpoint whole : Endpoint) : Prop where
  /-- It has the same method and path. -/
  operation : endpoint.operation = whole.operation
  /-- It stands on the same line. -/
  line : endpoint.line = whole.line
  /-- It has the same request or none. -/
  request : endpoint.request = none ∨ endpoint.request = whole.request
  /-- It has the same response or none. -/
  response : endpoint.response = none ∨
    endpoint.response = whole.response ∧ endpoint.responseIsArray = whole.responseIsArray

theorem isCut_of_readBody {first endpoint endpoint' : Endpoint} {line : Line}
    (h : IsCut first endpoint) (hok : endpoint.readBody line = .ok endpoint') :
    IsCut first endpoint' := by
  rcases readBody_eq_ok_iff.1 hok with ⟨hnone, type, -, rfl⟩ | ⟨hnone, type, -, rfl⟩
  -- the slot that is filled was empty, and so was that of the endpoint cut short
  · have hfirst : first.response = none := h.response.elim id fun heq => heq.1.trans hnone
    rw [withResponse_eq]
    exact ⟨h.operation, h.line, h.request, Or.inl hfirst⟩
  · have hfirst : first.request = none := h.request.elim id fun heq => heq.trans hnone
    exact ⟨h.operation, h.line, Or.inl hfirst, h.response⟩

/-- What the fault of a line is, behind the lines that gave endpoints. -/
inductive Blames (endpoints : List Endpoint) (line : NumberedLine) : Fault → Prop where
  /-- The fault tells the number and the text of the line. -/
  | line (problem : LineProblem) :
      Blames endpoints line (.line problem line.1 (String.ofList (trim line.2)))
  /-- The line is the header of an operation that one of the endpoints has. The report has the
  method in upper case, whatever it is on the line. -/
  | duplicateEndpoint {method : Method} {word path : List Char}
      (hheader : IsEndpointHeader line method path) (hword : IsFirstWord word line.2)
      (hmem : (method, String.ofList path) ∈ endpoints.map operation)
      (hreport : (Fault.duplicateEndpoint method (String.ofList path)).message? =
        some ("The endpoint " ++ String.ofList (word.map Char.toUpper) ++ " " ++
          String.ofList path ++ " is defined twice")) :
      Blames endpoints line (.duplicateEndpoint method (String.ofList path))
  /-- The first word of the line is no method. The fault has it as it is on the line. -/
  | unknownMethod {word : List Char} (hword : IsFirstWord word line.2)
      (hunknown : ∀ method : Method, word.map Char.toUpper ≠ method.name.toList) :
      Blames endpoints line (.unknownMethod (String.ofList word))

theorem readAll_eq_readWith : readAll = readWith readLine [] List.reverse := by
  funext text
  rw [readAll]
  show _ = ((tokenize text).foldlM readItem []).map _
  cases (tokenize text).foldlM readItem [] <;> rfl

theorem readsInOrder : ReadsInOrder readAll Blames (IsCutShort IsCut) := by
  rw [readAll_eq_readWith]
  refine readsInOrder_readWith (fun _ _ _ problem => .line problem) ?_ (fun endpoints => ?_) ?_
  · intro endpoints number depth text raw fault hraw hfault
    rcases readLine_eq_error hraw.trimmed hfault with
      ⟨problem, rfl⟩ | ⟨rfl, method, path, hheader, hmem, rfl⟩ | ⟨word, others, hwords, hnone, rfl⟩
    · rw [← hraw.trim_eq]
      exact .line problem
    · obtain ⟨word, hmethod, -, hwords⟩ := hheader.words_eq
      refine .duplicateEndpoint ⟨text, hraw, hheader⟩ (isFirstWord_of_words hraw hwords) ?_ ?_
      · simpa using hmem
      · rw [hmethod, String.ofList_toList]
        rfl
    · refine .unknownMethod (isFirstWord_of_words hraw hwords) fun method hmethod => ?_
      rw [Method.ofWord?_eq_some_iff_toUpper.2 hmethod] at hnone
      cases hnone
  · exact isCutShort_refl (fun _ => ⟨rfl, rfl, Or.inr rfl, Or.inr ⟨rfl, rfl⟩⟩) _
  · intro endpoints endpoints' number depth text raw endpoints'' hcut hraw hok
    rcases (readLine_eq_ok_iff hraw.trimmed).1 hok with
      ⟨-, method, path, -, -, rfl⟩ | ⟨-, endpoint, earlier, endpoint', rfl, hbody, rfl⟩
    · rw [List.reverse_cons]
      exact hcut.concat _
    · rw [List.reverse_cons] at hcut ⊢
      exact hcut.replaceLast fun first hfirst => isCut_of_readBody hfirst hbody

end Endpoint

/-- **Both readers read in order.** A fault is that of the first offending line, whatever follows
it, and a text that is accepted may be cut behind every line. -/
theorem readers_readInOrder :
    ReadsInOrder ModelTable.ofString ModelTable.Blames ModelTable.IsCut ∧
      ReadsInOrder Endpoint.readAll Endpoint.Blames (IsCutShort Endpoint.IsCut) :=
  ⟨ModelTable.readsInOrder, Endpoint.readsInOrder⟩

/-- Skipped lines count, and the fault of a later line is not told. -/
example : ModelTable.ofString "A:\n// fields\n  x: string\n  B : \n   y: C" =
    .error (.line .fieldExpected 4 "B :") := by
  decide +kernel

end ApiShorthand
