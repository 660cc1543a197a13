import ApiShorthand.Proofs.Line.Shown

/-!
# Renumbered lines

A reader that only passes on the numbers of lines does not care what they are. Let `same` say which
number of one text stands for the line of which number of another. If the reader does corresponding
things with one line (`IsParametric`), then it does so with texts that show the same lines
(`IsParametric.readWith_corresponds`): both are accepted, or both are refused with the same fault,
about the same line.
-/

namespace ApiShorthand

open Text

variable {same : Nat → Nat → Prop}

/-- Two faults are the same, but what one tells about a line, the other tells about the line of the
other number. -/
inductive Fault.Renumbered (same : Nat → Nat → Prop) : Fault → Fault → Prop where
  | line {problem : LineProblem} {number number' : Nat} {text : String} (h : same number number') :
      Renumbered same (.line problem number text) (.line problem number' text)
  | other {fault : Fault} (h : ∀ problem number text, fault ≠ .line problem number text) :
      Renumbered same fault fault

/-- Two structural lines are the same up to their numbers. -/
structure Line.Renumbered (same : Nat → Nat → Prop) (line line' : Line) : Prop where
  number : same line.number line'.number
  depth : line'.depth = line.depth
  kind : line'.kind = line.kind
  text : line'.text = line.text

theorem Line.Renumbered.fault {line line' : Line} (h : line.Renumbered same line')
    (problem : LineProblem) : (line.fault problem).Renumbered same (line'.fault problem) := by
  rw [Line.fault, Line.fault, faultAt, faultAt, h.text]
  exact .line h.number

/-- Two lines show the same up to their numbers. -/
def SameShown (same : Nat → Nat → Prop) (line line' : NumberedLine) : Prop :=
  same line.1 line'.1 ∧ line.2 = line'.2

/-- What is told of the members of related lists alike is told of the lists alike. -/
theorem map_filter_eq_of_forall₂ {α β : Type} {R : α → α → Prop} {p : α → Bool} {f : α → β}
    (h : ∀ a b, R a b → p b = p a ∧ f b = f a) {l l' : List α} (hl : List.Forall₂ R l l') :
    (l'.filter p).map f = (l.filter p).map f := by
  induction hl with
  | nil => rfl
  | @cons a b l l' hab _ ih =>
    obtain ⟨hp, hf⟩ := h a b hab
    rw [List.filter_cons, List.filter_cons, hp]
    split
    · rw [List.map_cons, List.map_cons, hf, ih]
    · exact ih

theorem map_eq_of_forall₂ {α β : Type} {R : α → α → Prop} {f : α → β}
    (h : ∀ a b, R a b → f b = f a) {l l' : List α} (hl : List.Forall₂ R l l') :
    l'.map f = l.map f := by
  have hall := map_filter_eq_of_forall₂ (p := fun _ => true) (fun a b hab => ⟨rfl, h a b hab⟩) hl
  rwa [List.filter_true, List.filter_true] at hall

/-- Members that are related to their images only make the list of images. -/
theorem eq_map_of_forall₂ {α β : Type} {R : α → β → Prop} {f : α → β}
    (h : ∀ a b, R a b → b = f a) {l : List α} {l' : List β} (hl : List.Forall₂ R l l') :
    l' = l.map f := by
  have himages : List.Forall₂ Eq (l.map f) l' :=
    List.forall₂_map_left_iff.2 (hl.imp fun a b hab => (h a b hab).symm)
  rw [List.forall₂_eq_eq_eq] at himages
  exact himages.symm

/-! ### Lines -/

theorem shownLine_renumbered {number number' : Nat} (h : same number number') (raw : List Char) :
    List.Forall₂ (SameShown same) (shownLine (number, raw)) (shownLine (number', raw)) := by
  rw [shownLine, shownLine]
  split
  · exact .nil
  · exact .cons ⟨h, rfl⟩ .nil

/-- A text shows the same whatever the number of its first line is. -/
theorem shownFrom_renumbered (number number' : Nat) (text : List Char)
    (h : ∀ index < (physicalLines text).length, same (number + index) (number' + index)) :
    List.Forall₂ (SameShown same) (shownFrom number text) (shownFrom number' text) := by
  rw [shownFrom, shownFrom]
  generalize physicalLines text = lines at h ⊢
  induction lines generalizing number number' with
  | nil => exact .nil
  | cons raw lines ih =>
    rw [numberFrom, numberFrom, List.flatMap_cons, List.flatMap_cons]
    have hfirst : same number number' := h 0 (by simp)
    refine List.rel_append (shownLine_renumbered hfirst raw) (ih _ _ fun index hindex => ?_)
    have hnext := h (index + 1) (by simpa using hindex)
    rwa [Nat.add_assoc, Nat.add_assoc, Nat.add_comm 1]

theorem Line.read_corresponds {number number' : Nat} (h : same number number') (previous : Nat)
    (raw : List Char) :
    Except.Corresponds (Fault.Renumbered same) (Line.Renumbered same)
      (read previous number raw) (read previous number' raw) := by
  rw [read, read]
  cases depthOf previous (indentation raw) with
  | error problem => exact Fault.Renumbered.line h
  | ok depth => exact ⟨h, rfl, rfl, rfl⟩

/-! ### Readers -/

variable {σ ρ : Type} {related : (Nat → Nat → Prop) → σ → σ → Prop}
  {step : σ → Line → Except Fault σ}

/-- A reader does corresponding things with renumbered lines. `related` is what states are up to the
numbers of lines. -/
def IsParametric (related : (Nat → Nat → Prop) → σ → σ → Prop)
    (step : σ → Line → Except Fault σ) : Prop :=
  ∀ {same : Nat → Nat → Prop} {s s' : σ} {line line' : Line}, related same s s' →
    line.Renumbered same line' →
      Except.Corresponds (Fault.Renumbered same) (related same) (step s line) (step s' line')

/-- The states of a reader are related, and the last structural line had one depth. -/
def RelatedBehind (related : (Nat → Nat → Prop) → σ → σ → Prop) (same : Nat → Nat → Prop)
    (state state' : Nat × σ) : Prop :=
  state.1 = state'.1 ∧ related same state.2 state'.2

theorem IsParametric.advance_corresponds (h : IsParametric related step) {state state' : Nat × σ}
    {line line' : NumberedLine} (hstate : RelatedBehind related same state state')
    (hline : SameShown same line line') :
    Except.Corresponds (Fault.Renumbered same) (RelatedBehind related same)
      (advance step state line) (advance step state' line') := by
  obtain ⟨depth, s⟩ := state
  obtain ⟨depth', s'⟩ := state'
  obtain ⟨number, raw⟩ := line
  obtain ⟨number', raw'⟩ := line'
  obtain ⟨rfl : depth = depth', hs⟩ := hstate
  obtain ⟨hsame, rfl : raw = raw'⟩ := hline
  rw [advance, advance]
  by_cases hskipped : IsSkipped raw
  · rw [if_pos hskipped, if_pos hskipped]
    exact ⟨rfl, hs⟩
  · rw [if_neg hskipped, if_neg hskipped]
    refine (Line.read_corresponds hsame depth raw).bind fun line line' hline => ?_
    exact (h hs hline).map fun _ _ ht => ⟨hline.depth.symm, ht⟩

theorem IsParametric.foldlM_corresponds (h : IsParametric related step) {state state' : Nat × σ}
    {lines lines' : List NumberedLine} (hstate : RelatedBehind related same state state')
    (hlines : List.Forall₂ (SameShown same) lines lines') :
    Except.Corresponds (Fault.Renumbered same) (RelatedBehind related same)
      (lines.foldlM (advance step) state) (lines'.foldlM (advance step) state') :=
  .foldlM (fun _ _ _ _ hs hline => h.advance_corresponds hs hline) hlines hstate

/-- **Reading what is shown**: texts that show the same lines are read to related results, or
refused with the same fault, about the same line. -/
theorem IsParametric.readWith_corresponds (h : IsParametric related step) {start : σ}
    {finish : σ → ρ} {result : ρ → ρ → Prop} {text text' : String}
    (hlines : List.Forall₂ (SameShown same) (shownFrom 1 text.toList) (shownFrom 1 text'.toList))
    (hstart : related same start start)
    (hfinish : ∀ s s', related same s s' → result (finish s) (finish s')) :
    Except.Corresponds (Fault.Renumbered same) result (readWith step start finish text)
      (readWith step start finish text') := by
  rw [readWith_eq_shown, readWith_eq_shown]
  have hstate : RelatedBehind related same (0, start) (0, start) := ⟨rfl, hstart⟩
  exact (h.foldlM_corresponds hstate hlines).map fun _ _ hlast => hfinish _ _ hlast.2

end ApiShorthand
