import ApiShorthand.Proofs.Json.Proper
import ApiShorthand.Proofs.Outcome
import ApiShorthand.Yaml.Reader

/-!
# What is read from YAML

Whatever text is read, its value is proper (`isProper_of_read`): the entries of a mapping go into a
table, and an integer out of range is refused. `Yields` says what holds of all results of a reading,
with one law for each way in which readings are put together.
-/

namespace ApiShorthand.Yaml

namespace Document

variable {α β : Type} {p : α → Prop} {q : β → Prop}

/-- All results of a reading have a property, however many aliases may be followed. -/
def Yields (reading : Reading α) (p : α → Prop) : Prop :=
  ∀ left result left', reading left = .ok (result, left') → p result

namespace Yields

theorem pure {a : α} (h : p a) : Yields (Pure.pure a) p := by
  intro left result left' heq
  cases heq
  exact h

theorem throw (fault : Fault) : Yields (MonadExcept.throw fault : Reading α) p := by
  intro left result left' heq
  cases heq

theorem bind {reading : Reading α} {next : α → Reading β} (h : Yields reading p)
    (hnext : ∀ a, p a → Yields (next a) q) : Yields (reading >>= next) q := by
  intro left result left' heq
  obtain ⟨⟨a, middle⟩, ha, hresult⟩ := Except.bind_eq_ok_iff.1 heq
  exact hnext a (h left a middle ha) middle result left' hresult

/-- A reading of which nothing is known, and another one behind it. -/
theorem bind_of_forall {reading : Reading α} {next : α → Reading β}
    (hnext : ∀ a, Yields (next a) q) : Yields (reading >>= next) q :=
  bind (p := fun _ => True) (fun _ _ _ _ => trivial) fun a _ => hnext a

theorem lift {x : Except Fault α} (h : ∀ a, x = .ok a → p a) :
    Yields (liftM x : Reading α) p := by
  intro left result left' heq
  obtain ⟨a, ha, hresult⟩ := Except.bind_eq_ok_iff.1 heq
  cases hresult
  exact h _ ha

theorem mapM {f : β → Reading α} (l : List β) (h : ∀ b, Yields (f b) p) :
    Yields (l.mapM f) fun results => ∀ a ∈ results, p a := by
  induction l with
  | nil =>
    rw [List.mapM_nil]
    exact pure nofun
  | cons b l ih =>
    rw [List.mapM_cons]
    refine bind (h b) fun a ha => bind ih fun results hresults => pure ?_
    exact List.forall_mem_cons.2 ⟨ha, hresults⟩

end Yields

/-! ### Scalars -/

theorem isProper_of_meaning {meaning : Meaning} {text : List Char} {value : Json}
    (h : meaning.value text = .ok value) : value.IsProper := by
  cases meaning with
  | null =>
    cases h
    exact .null
  | bool b =>
    cases h
    exact .bool b
  | int i =>
    rw [Meaning.value, Meaning.intValue] at h
    split_ifs at h with hrange
    cases h
    exact .int hrange.1 hrange.2
  | float x =>
    cases h
    exact Json.isProper_ofFloat x
  | text =>
    cases h
    exact .string _

theorem isProper_of_scalarValue {properties : Properties} {text : List Char} {plain : Bool}
    {value : Json} (h : scalarValue properties text plain = .ok value) : value.IsProper := by
  obtain ⟨-, -, h⟩ := Except.bind_eq_ok_iff.1 h
  cases htag : properties.tag with
  | none =>
    rw [htag] at h
    dsimp only at h
    split_ifs at h
    · exact isProper_of_meaning h
    · exact isProper_of_meaning h
  | some tag =>
    rw [htag] at h
    dsimp only at h
    split_ifs at h
    · exact isProper_of_meaning h
    · obtain ⟨meaning, -, h⟩ := Except.bind_eq_ok_iff.1 h
      exact isProper_of_meaning h

/-! ### Values -/

theorem yields_value (document : Document) (depth : Nat) (node : Node) :
    Yields (document.value depth node) Json.IsProper := by
  induction depth generalizing node with
  | zero =>
    rw [value]
    refine Yields.bind_of_forall fun followed => ?_
    cases followed with
    | scalar properties text plain => exact Yields.lift fun _ => isProper_of_scalarValue
    | sequence properties items => exact Yields.throw _
    | mapping properties entries => exact Yields.throw _
    | reference anchor => exact Yields.throw _
  | succ depth ih =>
    rw [value]
    refine Yields.bind_of_forall fun followed => ?_
    cases followed with
    | scalar properties text plain => exact Yields.lift fun _ => isProper_of_scalarValue
    | sequence properties items =>
      refine Yields.bind_of_forall fun _ => ?_
      exact (Yields.mapM items ih).bind fun values hvalues => Yields.pure (.array hvalues)
    | mapping properties entries =>
      refine Yields.bind_of_forall fun _ => ?_
      have hentry : ∀ entry : Node × Node, Yields (do
          let key ← document.key entry.1
          return (key, ← document.value depth entry.2))
          fun entry : String × Json => entry.2.IsProper := by
        intro entry
        refine Yields.bind_of_forall fun key => ?_
        exact (ih entry.2).bind fun value hvalue => Yields.pure hvalue
      refine (Yields.mapM entries hentry).bind fun values hvalues => ?_
      exact Yields.pure (Json.isProper_ofList hvalues)
    | reference anchor => exact Yields.throw _

end Document

/-- **A value that is read is proper.** -/
theorem isProper_of_read {text : String} {value : Json} (h : read text = .ok value) :
    value.IsProper := by
  obtain ⟨spots, -, h⟩ := Except.bind_eq_ok_iff.1 h
  obtain ⟨tokens, -, h⟩ := Except.bind_eq_ok_iff.1 h
  obtain ⟨node?, -, h⟩ := Except.bind_eq_ok_iff.1 h
  cases node? with
  | none =>
    cases h
    exact .null
  | some node =>
    obtain ⟨⟨result, left⟩, hresult, h⟩ := Except.bind_eq_ok_iff.1 h
    cases h
    exact (Document.ofNode node).yields_value _ _ _ _ _ hresult

end ApiShorthand.Yaml
