import ApiShorthand.Proofs.Grammar.Renumbering
import ApiShorthand.Proofs.Line.Concatenation
import ApiShorthand.Proofs.Specification.Building

/-!
# Models and endpoints of two texts

Both readers are readers of declarations: of models by their names, and of endpoints by their
operations. So they read two texts, the one behind the other, to what both declare, unless a name or
an operation is declared in both of them.
-/

namespace ApiShorthand

/-! ### Models -/

namespace Model

/-- A model that is declared some lines further down. -/
def moved (count : Nat) (model : Model) : Model where
  name := model.name
  line := model.line + count
  fields := model.fields.map fun field => { field with line := field.line + count }

theorem readsItems_readLine : ReadsItems Model.name .duplicateModel readLine where
  depth_le := depth_le_of_readLine
  extends_items {models models' line} h := by
    have hdepth : line.depth ≤ 1 := depth_le_of_readLine h
    by_cases hkind : line.kind = .header
    · have hstep := fun models => readLine_of_header models hdepth hkind
      cases hname : headerName? line.text.toList with
      | none =>
        rw [hstep, hname] at h
        cases h
      | some name =>
        simp only [hname] at hstep
        exact extendsItems_of_header hstep (fun _ => any_name_iff) h
    · have hstep := fun models => readLine_of_field models hdepth hkind
      refine extendsItems_of_part (hstep []) (fun model earlier => hstep (model :: earlier)) ?_ h
      intro model model' hmodel
      obtain ⟨name, required, type, -, -, rfl⟩ := readField_eq_ok_iff.1 hmodel
      rfl

theorem eq_moved_of_renumbered (count : Nat) (model model' : Model)
    (h : model.Renumbered (fun number number' => number' = number + count) model') :
    model' = model.moved count := by
  have hfields : model'.fields =
      model.fields.map fun field => { field with line := field.line + count } := by
    refine eq_map_of_forall₂ (fun field field' hfield => ?_) h.fields
    obtain ⟨number', rfl, rfl⟩ := hfield
    rfl
  obtain ⟨name', line', fields'⟩ := model'
  obtain ⟨rfl, rfl, -⟩ := h
  rw [moved, ← hfields]

theorem readsJoined : ReadsJoined readAll Model.name .duplicateModel moved := by
  rw [readAll_eq_readWith]
  exact readsJoined_readWith readsItems_readLine isParametric_readLine eq_moved_of_renumbered
    fun _ _ => rfl

end Model

namespace ModelTable

/-- An entry of a model that is declared some lines further down. -/
def movedEntry (count : Nat) (entry : String × Model) : String × Model :=
  (entry.1, entry.2.moved count)

/-- The tables of models are joined as their models are. -/
theorem readsJoined : ReadsJoined ofString Prod.fst .duplicateModel movedEntry := by
  intro text other table others hends htext hother
  rw [ofString_eq_ok_iff] at htext hother
  obtain ⟨models, hmodels, rfl⟩ := htext
  obtain ⟨models', hmodels', rfl⟩ := hother
  have hkeys (models : List Model) : (ofModels models).map Prod.fst = models.map Model.name := by
    simp [ofModels]
  rw [hkeys, hkeys]
  rcases Model.readsJoined text other models models' hends hmodels hmodels' with
    ⟨hdisjoint, hok⟩ | ⟨name, hshared, herror⟩
  · left
    refine ⟨hdisjoint, ofString_eq_ok_iff.2 ⟨_, hok, ?_⟩⟩
    simp [ofModels, movedEntry, Model.moved]
  · right
    refine ⟨name, hshared, ?_⟩
    rw [ofString, herror]
    rfl

end ModelTable

/-! ### Endpoints -/

namespace Endpoint

/-- An endpoint that is declared some lines further down. -/
def moved (count : Nat) (endpoint : Endpoint) : Endpoint :=
  { endpoint with line := endpoint.line + count }

/-- The fault of an operation that is declared twice. -/
def repeatedOperation (operation : Method × String) : Fault :=
  .duplicateEndpoint operation.1 operation.2

theorem readsItems_readLine : ReadsItems operation repeatedOperation readLine where
  depth_le := depth_le_of_readLine
  extends_items {endpoints endpoints' line} h := by
    have hdepth : line.depth ≤ 1 := depth_le_of_readLine h
    by_cases hkind : line.kind = .header
    · have hstep := fun endpoints => readLine_of_header endpoints hdepth hkind
      cases hheader : readHeader line with
      | error fault =>
        rw [hstep, hheader] at h
        cases h
      | ok endpoint =>
        simp only [hheader] at hstep
        exact extendsItems_of_header hstep (fun _ => any_sameOperation_iff) h
    · have hstep := fun endpoints => readLine_of_body endpoints hdepth hkind
      exact extendsItems_of_part (hstep []) (fun endpoint earlier => hstep (endpoint :: earlier))
        (fun endpoint endpoint' hbody => operation_of_readBody hbody) h

theorem readsJoined : ReadsJoined readAll operation repeatedOperation moved := by
  rw [readAll_eq_readWith]
  refine readsJoined_readWith readsItems_readLine isParametric_readLine ?_ fun _ _ => rfl
  rintro count endpoint endpoint' ⟨number', rfl, rfl⟩
  rfl

end Endpoint

end ApiShorthand
