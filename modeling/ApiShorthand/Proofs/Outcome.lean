import Mathlib.Data.List.Forall2

/-!
# Success of composed computations

When a computation that can fail is made of others, and what the parts give if it succeeds; and
when two computations agree (`Agree`), or correspond while their faults differ (`Corresponds`).
-/

namespace Except

variable {ε α β : Type}

/-- Two computations in a row succeed exactly if both do. -/
theorem bind_eq_ok_iff {x : Except ε α} {f : α → Except ε β} {b : β} :
    x >>= f = .ok b ↔ ∃ a, x = .ok a ∧ f a = .ok b := by
  cases x with
  | error fault => exact iff_of_false nofun nofun
  | ok a =>
    constructor
    · intro h
      exact ⟨a, rfl, h⟩
    · rintro ⟨a', ha, h⟩
      cases ha
      exact h

/-- A computation with a function behind it succeeds exactly if it does itself. -/
theorem map_eq_ok_iff {x : Except ε α} {f : α → β} {b : β} :
    x.map f = .ok b ↔ ∃ a, x = .ok a ∧ b = f a := by
  cases x with
  | error fault => exact iff_of_false nofun nofun
  | ok a =>
    constructor
    · intro h
      cases h
      exact ⟨a, rfl, rfl⟩
    · rintro ⟨a', ha, rfl⟩
      cases ha
      rfl

theorem map_eq_error_iff {x : Except ε α} {f : α → β} {fault : ε} :
    x.map f = .error fault ↔ x = .error fault := by
  cases x with
  | error fault' => simp [Except.map]
  | ok a => exact iff_of_false nofun nofun

theorem exists_of_isOk {x : Except ε α} (h : x.isOk = true) : ∃ a, x = .ok a := by
  cases x with
  | error fault => cases h
  | ok a => exact ⟨a, rfl⟩

/-- Two computations agree if both give results, and these are related, or if both fail in the same
way. -/
def Agree (related : α → β → Prop) : Except ε α → Except ε β → Prop
  | ok a, ok b => related a b
  | error fault, error fault' => fault = fault'
  | _, _ => False

/-- Computations that start in the same way agree if what they do then agrees. -/
theorem Agree.bind {γ : Type} {related : β → γ → Prop} {x : Except ε α} {f : α → Except ε β}
    {g : α → Except ε γ} (h : ∀ a, x = .ok a → Agree related (f a) (g a)) :
    Agree related (x >>= f) (x >>= g) := by
  cases x with
  | error fault => exact rfl
  | ok a => exact h a rfl

/-- Two computations correspond if both give results, and these are related, or if both fail, with
faults that are related. -/
def Corresponds (faults : ε → ε → Prop) (related : α → β → Prop) : Except ε α → Except ε β → Prop
  | ok a, ok b => related a b
  | error fault, error fault' => faults fault fault'
  | _, _ => False

namespace Corresponds

variable {γ δ : Type} {faults : ε → ε → Prop} {related : α → β → Prop} {related' : γ → δ → Prop}
  {x : Except ε α} {y : Except ε β}

theorem bind {f : α → Except ε γ} {g : β → Except ε δ} (h : Corresponds faults related x y)
    (hnext : ∀ a b, related a b → Corresponds faults related' (f a) (g b)) :
    Corresponds faults related' (x >>= f) (y >>= g) := by
  cases x <;> cases y
  · exact h
  · exact h.elim
  · exact h.elim
  · exact hnext _ _ h

theorem map {f : α → γ} {g : β → δ} (h : Corresponds faults related x y)
    (hnext : ∀ a b, related a b → related' (f a) (g b)) :
    Corresponds faults related' (x.map f) (y.map g) := by
  cases x <;> cases y
  · exact h
  · exact h.elim
  · exact h.elim
  · exact hnext _ _ h

theorem mono_faults {faults' : ε → ε → Prop} (h : Corresponds faults related x y)
    (hfaults : ∀ fault fault', x = error fault → faults fault fault' → faults' fault fault') :
    Corresponds faults' related x y := by
  cases x <;> cases y
  · exact hfaults _ _ rfl h
  · exact h
  · exact h
  · exact h

theorem and_ok (h : Corresponds faults related x y) :
    Corresponds faults (fun a b => x = ok a ∧ related a b) x y := by
  cases x <;> cases y
  · exact h
  · exact h
  · exact h
  · exact ⟨rfl, h⟩

/-- What corresponds to a success is a success. -/
theorem exists_ok {a : α} (h : Corresponds faults related x y) (hx : x = ok a) :
    ∃ b, y = ok b ∧ related a b := by
  subst hx
  cases y with
  | error fault => exact h.elim
  | ok b => exact ⟨b, rfl, h⟩

/-- Folds over related lists correspond if their steps do. -/
theorem foldlM {σ τ : Type} {states : σ → τ → Prop} {f : σ → α → Except ε σ}
    {g : τ → β → Except ε τ} {l : List α} {l' : List β} {s : σ} {t : τ}
    (hstep : ∀ s t a b, states s t → related a b → Corresponds faults states (f s a) (g t b))
    (hl : List.Forall₂ related l l') (hs : states s t) :
    Corresponds faults states (l.foldlM f s) (l'.foldlM g t) := by
  induction hl generalizing s t with
  | nil => exact hs
  | cons hab _ ih =>
    rw [List.foldlM_cons, List.foldlM_cons]
    exact (hstep _ _ _ _ hs hab).bind fun _ _ => ih

end Corresponds

end Except
