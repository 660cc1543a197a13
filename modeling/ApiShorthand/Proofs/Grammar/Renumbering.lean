import ApiShorthand.Proofs.Grammar.FirstFault
import ApiShorthand.Proofs.Line.Renumbering

/-!
# Renumbered models and endpoints

Neither reader looks at the numbers of lines: `Model.isParametric_readLine` and
`Endpoint.isParametric_readLine`. Models and endpoints keep the number of the line that declares
them, and are otherwise the same whatever the numbers are.
-/

namespace ApiShorthand

variable {same : Nat → Nat → Prop}

/-! ### Models -/

/-- Two fields are the same up to their lines. -/
def Field.Renumbered (same : Nat → Nat → Prop) (field field' : Field) : Prop :=
  ∃ number', same field.line number' ∧ field' = { field with line := number' }

/-- Two models are the same up to their lines and those of their fields. -/
structure Model.Renumbered (same : Nat → Nat → Prop) (model model' : Model) : Prop where
  name : model'.name = model.name
  line : same model.line model'.line
  fields : List.Forall₂ (Field.Renumbered same) model.fields model'.fields

namespace Model

/-- What is told of fields without their lines is told of renumbered fields alike. -/
theorem map_fields_renumbered {β : Type} {f : Field → β}
    (hf : ∀ field number, f { field with line := number } = f field) {fields fields' : List Field}
    (h : List.Forall₂ (Field.Renumbered same) fields fields') : fields'.map f = fields.map f := by
  refine map_eq_of_forall₂ (fun field field' hfield => ?_) h
  obtain ⟨number', -, rfl⟩ := hfield
  exact hf field number'

theorem names_renumbered {models models' : List Model}
    (h : List.Forall₂ (Renumbered same) models models') :
    models'.map (·.name) = models.map (·.name) :=
  map_eq_of_forall₂ (fun _ _ hmodel => hmodel.name) h

theorem readField_eq (model : Model) (line : Line) :
    model.readField line =
      match fieldParts? line.text.toList with
      | none => .error (line.fault .fieldExpected)
      | some parts =>
        if String.ofList parts.name ∈ model.fields.map (·.name) then
          .error (line.fault (.repeatedField (String.ofList parts.name) model.name))
        else
          match TypeRef.read parts.token with
          | .error problem => .error (line.fault problem)
          | .ok type =>
            .ok { model with
              fields := model.fields ++ [{ name := String.ofList parts.name, line := line.number,
                                           type, required := parts.required, nullable := false }] }
    := by
  unfold readField
  cases fieldParts? line.text.toList with
  | none => rfl
  | some parts =>
    dsimp only
    by_cases hname : String.ofList parts.name ∈ model.fields.map (·.name)
    · rw [if_pos hname, if_pos (isSome_field?_iff.2 hname)]
      rfl
    · rw [if_neg hname, if_neg (isSome_field?_iff.not.2 hname)]
      cases TypeRef.read parts.token <;> rfl

theorem readField_corresponds {model model' : Model} {line line' : Line}
    (hmodel : model.Renumbered same model') (hline : line.Renumbered same line') :
    Except.Corresponds (Fault.Renumbered same) (Renumbered same)
      (model.readField line) (model'.readField line') := by
  rw [readField_eq, readField_eq, map_fields_renumbered (fun _ _ => rfl) hmodel.fields,
    hmodel.name, hline.text]
  cases fieldParts? line.text.toList with
  | none => exact hline.fault _
  | some parts =>
    dsimp only
    split
    · exact hline.fault _
    · cases TypeRef.read parts.token with
      | error problem => exact hline.fault _
      | ok type =>
        refine ⟨rfl, hmodel.line, List.rel_append hmodel.fields (.cons ?_ .nil)⟩
        exact ⟨line'.number, hline.number, rfl⟩

/-- **Reading models** does not depend on the numbers of lines. -/
theorem isParametric_readLine :
    IsParametric (fun same => List.Forall₂ (Renumbered same)) readLine := by
  intro same models models' line line' hmodels hline
  by_cases hdepth : line.depth ≤ 1
  · have hdepth' : line'.depth ≤ 1 := by rwa [hline.depth]
    by_cases hkind : line.kind = .header
    · rw [readLine_of_header models hdepth hkind,
        readLine_of_header models' hdepth' (hline.kind.trans hkind), hline.text]
      cases headerName? line.text.toList with
      | none => exact hline.fault _
      | some name =>
        have hany : models'.any (·.name == String.ofList name) =
            models.any (·.name == String.ofList name) := by
          rw [Bool.eq_iff_iff, any_name_iff, any_name_iff, names_renumbered hmodels]
        dsimp only
        rw [hany]
        split
        · exact .other nofun
        · exact .cons ⟨rfl, hline.number, .nil⟩ hmodels
    · rw [readLine_of_field models hdepth hkind,
        readLine_of_field models' hdepth' (by rwa [hline.kind])]
      cases hmodels with
      | nil => exact hline.fault _
      | cons hmodel hearlier =>
        exact (readField_corresponds hmodel hline).map fun _ _ hmodel' => .cons hmodel' hearlier
  · have hdepth' : ¬ line'.depth ≤ 1 := by rwa [hline.depth]
    rw [readLine_of_nested models (not_le.1 hdepth), readLine_of_nested models' (not_le.1 hdepth')]
    exact hline.fault _

theorem readAll_eq_readWith : readAll = readWith readLine [] List.reverse := by
  funext text
  rw [readAll]
  show _ = ((tokenize text).foldlM readItem []).map _
  cases (tokenize text).foldlM readItem [] <;> rfl

theorem readAll_corresponds {text text' : String}
    (h : List.Forall₂ (SameShown same) (shownFrom 1 text.toList) (shownFrom 1 text'.toList)) :
    Except.Corresponds (Fault.Renumbered same) (List.Forall₂ (Renumbered same))
      (readAll text) (readAll text') := by
  rw [readAll_eq_readWith]
  exact isParametric_readLine.readWith_corresponds h .nil
    fun _ _ hmodels => List.forall₂_reverse_iff.2 hmodels

end Model

/-! ### Endpoints -/

namespace Endpoint

/-- Two endpoints are the same up to their lines. -/
def Renumbered (same : Nat → Nat → Prop) (endpoint endpoint' : Endpoint) : Prop :=
  ∃ number', same endpoint.line number' ∧ endpoint' = { endpoint with line := number' }

theorem operations_renumbered {endpoints endpoints' : List Endpoint}
    (h : List.Forall₂ (Renumbered same) endpoints endpoints') :
    endpoints'.map operation = endpoints.map operation := by
  refine map_eq_of_forall₂ (fun endpoint endpoint' hendpoint => ?_) h
  obtain ⟨number', -, rfl⟩ := hendpoint
  rfl

theorem readType_corresponds {line line' : Line} (h : line.Renumbered same line')
    (token : List Char) :
    Except.Corresponds (Fault.Renumbered same) Eq (readType line token) (readType line' token) := by
  rw [readType, readType]
  cases TypeRef.read token with
  | error problem => exact h.fault problem
  | ok type => exact rfl

theorem withResponse_renumbered {endpoint endpoint' : Endpoint}
    (h : endpoint.Renumbered same endpoint') (type : TypeRef) :
    (endpoint.withResponse type).Renumbered same (endpoint'.withResponse type) := by
  obtain ⟨number', hsame, rfl⟩ := h
  rw [withResponse_eq, withResponse_eq]
  exact ⟨number', hsame, rfl⟩

/-- A slot of an endpoint is filled in the same way. -/
theorem fill_corresponds {slot : Option TypeRef} {line line' : Line} {token : List Char}
    {problem : LineProblem} {f f' : TypeRef → Endpoint} (hline : line.Renumbered same line')
    (hf : ∀ type, (f type).Renumbered same (f' type)) :
    Except.Corresponds (Fault.Renumbered same) (Renumbered same)
      (if slot.isSome then .error (line.fault problem) else (readType line token).map f)
      (if slot.isSome then .error (line'.fault problem) else (readType line' token).map f') := by
  split
  · exact hline.fault problem
  · refine (readType_corresponds hline token).map fun type type' htype => ?_
    rw [← htype]
    exact hf type

theorem readBody_corresponds {endpoint endpoint' : Endpoint} {line line' : Line}
    (hendpoint : endpoint.Renumbered same endpoint') (hline : line.Renumbered same line') :
    Except.Corresponds (Fault.Renumbered same) (Renumbered same)
      (endpoint.readBody line) (endpoint'.readBody line') := by
  have hresponse := withResponse_renumbered hendpoint
  obtain ⟨number', hsame, rfl⟩ := hendpoint
  cases harrow : responseToken? line.text.toList with
  | some token =>
    rw [readBody_of_response _ harrow, readBody_of_response _ (by rwa [hline.text])]
    exact fill_corresponds hline hresponse
  | none =>
    rw [readBody_of_request _ harrow, readBody_of_request _ (by rwa [hline.text]), hline.text]
    exact fill_corresponds hline fun type => ⟨number', hsame, rfl⟩

theorem readHeader_corresponds {line line' : Line} (h : line.Renumbered same line') :
    Except.Corresponds (Fault.Renumbered same) (Renumbered same)
      (readHeader line) (readHeader line') := by
  rw [readHeader, readHeader, h.text]
  cases Text.words line.text.toList with
  | nil => exact h.fault _
  | cons token others =>
    dsimp only
    cases Method.ofWord? token with
    | none => exact Fault.Renumbered.other nofun
    | some method =>
      dsimp only
      split
      · split
        · exact ⟨line'.number, h.number, rfl⟩
        · exact h.fault _
      · exact h.fault _

/-- A header makes the same of related endpoints. -/
theorem addHeader_corresponds {endpoints endpoints' : List Endpoint} {endpoint endpoint' : Endpoint}
    (hendpoints : List.Forall₂ (Renumbered same) endpoints endpoints')
    (hendpoint : endpoint.Renumbered same endpoint') :
    Except.Corresponds (Fault.Renumbered same) (List.Forall₂ (Renumbered same))
      (if endpoints.any endpoint.sameOperation then
        .error (.duplicateEndpoint endpoint.method endpoint.path)
      else .ok (endpoint :: endpoints))
      (if endpoints'.any endpoint'.sameOperation then
        .error (.duplicateEndpoint endpoint'.method endpoint'.path)
      else .ok (endpoint' :: endpoints')) := by
  obtain ⟨number', hsame, rfl⟩ := hendpoint
  have hany : endpoints'.any ({ endpoint with line := number' } : Endpoint).sameOperation =
      endpoints.any endpoint.sameOperation := by
    rw [Bool.eq_iff_iff, any_sameOperation_iff, any_sameOperation_iff,
      operations_renumbered hendpoints]
    rfl
  rw [hany]
  split
  · exact Fault.Renumbered.other nofun
  · exact List.Forall₂.cons ⟨number', hsame, rfl⟩ hendpoints

/-- **Reading endpoints** does not depend on the numbers of lines. -/
theorem isParametric_readLine :
    IsParametric (fun same => List.Forall₂ (Renumbered same)) readLine := by
  intro same endpoints endpoints' line line' hendpoints hline
  by_cases hdepth : line.depth ≤ 1
  · have hdepth' : line'.depth ≤ 1 := by rwa [hline.depth]
    by_cases hkind : line.kind = .header
    · rw [readLine_of_header endpoints hdepth hkind,
        readLine_of_header endpoints' hdepth' (hline.kind.trans hkind)]
      have hheader := readHeader_corresponds hline
      generalize readHeader line = read at hheader ⊢
      generalize readHeader line' = read' at hheader ⊢
      cases read with
      | error fault =>
        cases read' with
        | error fault' => exact hheader
        | ok endpoint' => exact hheader.elim
      | ok endpoint =>
        cases read' with
        | error fault' => exact hheader.elim
        | ok endpoint' => exact addHeader_corresponds hendpoints hheader
    · rw [readLine_of_body endpoints hdepth hkind,
        readLine_of_body endpoints' hdepth' (by rwa [hline.kind])]
      cases hendpoints with
      | nil => exact hline.fault _
      | cons hendpoint hearlier =>
        exact (readBody_corresponds hendpoint hline).map
          fun _ _ hendpoint' => .cons hendpoint' hearlier
  · have hdepth' : ¬ line'.depth ≤ 1 := by rwa [hline.depth]
    rw [readLine_of_nested endpoints (not_le.1 hdepth),
      readLine_of_nested endpoints' (not_le.1 hdepth')]
    exact hline.fault _

theorem readAll_corresponds {text text' : String}
    (h : List.Forall₂ (SameShown same) (shownFrom 1 text.toList) (shownFrom 1 text'.toList)) :
    Except.Corresponds (Fault.Renumbered same) (List.Forall₂ (Renumbered same))
      (readAll text) (readAll text') := by
  rw [readAll_eq_readWith]
  exact isParametric_readLine.readWith_corresponds h .nil
    fun _ _ hendpoints => List.forall₂_reverse_iff.2 hendpoints

end Endpoint

end ApiShorthand
