import ApiShorthand.Proofs.Line.Structural

/-!
# Reading the first lines of a text

`firstLines count text` is the text up to the end of its line `count`. A reader that takes one
structural line after the other does to the first lines of a text what it does to the whole, as far
as they go: it has taken everything before the line at which it fails, and what follows that line
makes no difference (`readsInOrder_readWith`).

What a physical line does to a reader is `advance`; reading a text is a fold of it over the lines
(`readWith_eq`), and everything else is about folds that fail.
-/

namespace ApiShorthand

open Text

/-! ### The first lines -/

/-- The text up to and with as many line feeds as are counted. -/
def takeLines : Nat → List Char → List Char
  | 0, _ => []
  | _ + 1, [] => []
  | count + 1, c :: rest =>
    c :: if c = '\n' then takeLines count rest else takeLines (count + 1) rest

@[simp] theorem takeLines_zero (text : List Char) : takeLines 0 text = [] := by
  cases text <;> rfl

theorem takeLines_of_not_mem {line : List Char} (hfeed : '\n' ∉ line) (count : Nat) :
    takeLines (count + 1) line = line := by
  induction line with
  | nil => rfl
  | cons c line ih =>
    rw [List.mem_cons, not_or] at hfeed
    simp [takeLines, Ne.symm hfeed.1, ih hfeed.2]

theorem takeLines_append_feed {line : List Char} (hfeed : '\n' ∉ line) (count : Nat)
    (rest : List Char) :
    takeLines (count + 1) (line ++ '\n' :: rest) = line ++ '\n' :: takeLines count rest := by
  induction line with
  | nil => simp [takeLines]
  | cons c line ih =>
    rw [List.mem_cons, not_or] at hfeed
    simp [takeLines, Ne.symm hfeed.1, ih hfeed.2]

theorem SplitsInto.takeLines {text : List Char} {lines : List (List Char)}
    (h : SplitsInto text lines) (count : Nat) :
    SplitsInto (takeLines count text) (lines.take count) := by
  induction h generalizing count with
  | nil => cases count <;> exact .nil
  | last hne hfeed =>
    cases count with
    | zero => simpa using .nil
    | succ count =>
      rw [takeLines_of_not_mem hfeed]
      simpa using .last hne hfeed
  | feed hfeed hreturn hrest ih =>
    cases count with
    | zero => simpa using .nil
    | succ count =>
      rw [takeLines_append_feed hfeed]
      exact .feed hfeed hreturn (ih count)
  | @returnFeed line rest lines hfeed hrest ih =>
    cases count with
    | zero => simpa using .nil
    | succ count =>
      have hends : '\n' ∉ line ++ ['\r'] := by simp [hfeed]
      rw [List.append_cons, takeLines_append_feed hends, ← List.append_cons]
      exact .returnFeed hfeed (ih count)

theorem takeLines_isPrefix (count : Nat) (text : List Char) : takeLines count text <+: text := by
  induction text generalizing count with
  | nil => cases count <;> simp [takeLines]
  | cons c text ih =>
    cases count with
    | zero => simp
    | succ count =>
      rw [takeLines, List.prefix_cons_inj]
      split
      · exact ih count
      · exact ih (count + 1)

/-- The text made of the first lines of a text, each with its end. -/
def firstLines (count : Nat) (text : String) : String :=
  String.ofList (takeLines count text.toList)

/-- The first lines are a beginning of the text, and are its first lines. -/
theorem firstLines_spec (count : Nat) (text : String) :
    (firstLines count text).toList <+: text.toList ∧
      physicalLines (firstLines count text).toList = (physicalLines text.toList).take count := by
  rw [firstLines, String.toList_ofList]
  exact ⟨takeLines_isPrefix count text.toList,
    splitsInto_iff.1 ((splitsInto_physicalLines text.toList).takeLines count)⟩

theorem numberFrom_take (number count : Nat) (lines : List (List Char)) :
    numberFrom number (lines.take count) = (numberFrom number lines).take count := by
  induction lines generalizing number count with
  | nil => simp [numberFrom]
  | cons raw lines ih => cases count <;> simp [numberFrom, ih]

@[simp] theorem length_numberFrom (number : Nat) (lines : List (List Char)) :
    (numberFrom number lines).length = lines.length := by
  induction lines generalizing number with
  | nil => rfl
  | cons raw lines ih => simp [numberFrom, ih]

theorem getElem?_numberFrom (number index : Nat) (lines : List (List Char)) :
    (numberFrom number lines)[index]? = lines[index]?.map (number + index, ·) := by
  induction lines generalizing number index with
  | nil => simp [numberFrom]
  | cons raw lines ih =>
    cases index with
    | zero => simp [numberFrom]
    | succ index => simp [numberFrom, ih, Nat.add_right_comm, Nat.add_assoc]

/-! ### Folds that fail -/

section Folds

variable {ε σ α : Type} {f : σ → α → Except ε σ} {s s' : σ} {l : List α} {fault : ε}

theorem foldlM_take_of_eq_ok (h : l.foldlM f s = .ok s') (count : Nat) :
    ∃ middle, (l.take count).foldlM f s = .ok middle ∧ (l.drop count).foldlM f middle = .ok s' := by
  rwa [← List.take_append_drop count l, List.foldlM_append, Except.bind_eq_ok_iff] at h

theorem foldlM_take_of_eq_error {count more : Nat} (hle : count ≤ more)
    (h : (l.take count).foldlM f s = .error fault) : (l.take more).foldlM f s = .error fault := by
  rw [← List.take_append_drop count (l.take more), List.take_take, min_eq_left hle,
    List.foldlM_append, h]
  rfl

theorem foldlM_take_succ {x : α} {count : Nat} (hx : l[count]? = some x) :
    (l.take (count + 1)).foldlM f s = (l.take count).foldlM f s >>= fun s' => f s' x := by
  rw [List.take_add_one, hx, List.foldlM_append]
  simp

/-- A fold that fails does so at one element, behind those that it took. -/
theorem exists_of_foldlM_eq_error (h : l.foldlM f s = .error fault) :
    ∃ count, count < l.length ∧ (∃ s', (l.take count).foldlM f s = .ok s') ∧
      (l.take (count + 1)).foldlM f s = .error fault := by
  induction l generalizing s with
  | nil => cases h
  | cons x l ih =>
    rw [List.foldlM_cons] at h
    cases hx : f s x with
    | error fault' =>
      rw [hx] at h
      cases h
      exact ⟨0, by simp, ⟨s, rfl⟩, by simp [hx]⟩
    | ok s' =>
      rw [hx] at h
      obtain ⟨count, hlt, ⟨s'', hok⟩, herror⟩ := ih h
      refine ⟨count + 1, by simpa using hlt, ⟨s'', ?_⟩, ?_⟩
      · rw [List.take_succ_cons, List.foldlM_cons, hx]
        exact hok
      · rw [List.take_succ_cons, List.foldlM_cons, hx]
        exact herror

theorem foldlM_preserves (Inv : σ → Prop)
    (hstep : ∀ s x s', Inv s → f s x = .ok s' → Inv s') (hs : Inv s)
    (h : l.foldlM f s = .ok s') : Inv s' := by
  induction l generalizing s with
  | nil =>
    cases h
    exact hs
  | cons x l ih =>
    rw [List.foldlM_cons, Except.bind_eq_ok_iff] at h
    obtain ⟨middle, hx, hrest⟩ := h
    exact ih (hstep s x middle hs hx) hrest

end Folds

/-! ### Readers -/

variable {σ ρ : Type} {step : σ → Line → Except Fault σ}

/-- Reads a text from a state on, and makes a result of the last state. -/
def readWith (step : σ → Line → Except Fault σ) (start : σ) (finish : σ → ρ) (text : String) :
    Except Fault ρ :=
  ((tokenize text).foldlM (fun s item => item >>= step s) start).map finish

/-- What a physical line does to a reader, of which the depth of the last structural line is
known. -/
def advance (step : σ → Line → Except Fault σ) (state : Nat × σ) (line : NumberedLine) :
    Except Fault (Nat × σ) :=
  if IsSkipped line.2 then .ok state
  else
    Line.read state.1 line.1 line.2 >>= fun structural =>
      (step state.2 structural).map (structural.depth, ·)

theorem foldlM_itemsIn_eq (previous : Nat) (pending : List NumberedLine) (s : σ) :
    (LineStream.itemsIn previous pending).foldlM (fun s item => item >>= step s) s =
      (pending.foldlM (advance step) (previous, s)).map Prod.snd := by
  induction pending generalizing previous s with
  | nil => rfl
  | cons line pending ih =>
    obtain ⟨number, raw⟩ := line
    rw [LineStream.itemsIn, List.foldlM_cons, advance]
    by_cases hskipped : IsSkipped raw
    · rw [LineKind.isStructural_ofChars_eq_false_iff.2 hskipped, if_pos hskipped]
      exact ih previous s
    · rw [if_pos (LineKind.isStructural_ofChars_iff.2 hskipped), if_neg hskipped]
      cases Line.read previous number raw with
      | error fault => rfl
      | ok line =>
        rw [List.foldlM_cons]
        cases hstep : step s line with
        | error fault => simp only [bind, Except.bind, Except.map, hstep]
        | ok s' =>
          simp only [bind, Except.bind, Except.map, hstep]
          exact ih line.depth s'

/-- **Reading** is a fold over the physical lines. -/
theorem readWith_eq (start : σ) (finish : σ → ρ) (text : String) :
    readWith step start finish text =
      ((numberFrom 1 (physicalLines text.toList)).foldlM (advance step) (0, start)).map
        fun state => finish state.2 := by
  rw [readWith, tokenize, LineStream.toList, LineStream.ofString, foldlM_itemsIn_eq]
  cases (numberFrom 1 (physicalLines text.toList)).foldlM (advance step) (0, start) <;> rfl

theorem readWith_firstLines_eq (start : σ) (finish : σ → ρ) (count : Nat) (text : String) :
    readWith step start finish (firstLines count text) =
      (((numberFrom 1 (physicalLines text.toList)).take count).foldlM (advance step)
        (0, start)).map fun state => finish state.2 := by
  rw [readWith_eq, (firstLines_spec count text).2, numberFrom_take]

theorem advance_eq_error {state : Nat × σ} {number : Nat} {raw : List Char} {fault : Fault}
    (h : advance step state (number, raw) = .error fault) :
    (∃ problem, fault = .line problem number (String.ofList (trim raw))) ∨
      ∃ depth text, IsIndented depth text raw ∧
        step state.2 (.structural number depth text) = .error fault := by
  rw [advance] at h
  split_ifs at h with hskipped
  cases hread : Line.read state.1 number raw with
  | error fault' =>
    rw [hread] at h
    cases h
    rw [Line.read] at hread
    split at hread
    · cases hread
    · cases hread
      exact Or.inl ⟨_, rfl⟩
  | ok line =>
    rw [hread] at h
    obtain ⟨depth, text, hraw, -, rfl⟩ := (Line.read_eq_ok_iff hskipped).1 hread
    exact Or.inr ⟨depth, text, hraw, Except.map_eq_error_iff.1 h⟩

theorem advance_eq_ok {state state' : Nat × σ} {number : Nat} {raw : List Char}
    (h : advance step state (number, raw) = .ok state') :
    state'.2 = state.2 ∨ ∃ depth text, IsIndented depth text raw ∧
      step state.2 (.structural number depth text) = .ok state'.2 := by
  rw [advance] at h
  split_ifs at h with hskipped
  · cases h
    exact Or.inl rfl
  · obtain ⟨structural, hread, hmap⟩ := Except.bind_eq_ok_iff.1 h
    obtain ⟨depth, text, hraw, -, rfl⟩ := (Line.read_eq_ok_iff hskipped).1 hread
    obtain ⟨s', hstep, rfl⟩ := Except.map_eq_ok_iff.1 hmap
    exact Or.inr ⟨depth, text, hraw, hstep⟩

/-- The first offending line of a text: what stands before it is accepted, and from that line on the
text is rejected in one way, wherever it is cut. -/
structure FailsAt (read : String → Except Fault ρ) (text : String) (fault : Fault)
    (number : Nat) : Prop where
  /-- It is one of the lines. -/
  isLine : 1 ≤ number ∧ number ≤ (physicalLines text.toList).length
  /-- The text before it is accepted. -/
  accepted : ∃ result, read (firstLines (number - 1) text) = .ok result
  /-- The text up to it is rejected, and so is the text up to any later line. -/
  rejected : ∀ count, number ≤ count → count ≤ (physicalLines text.toList).length →
    read (firstLines count text) = .error fault

/-- A reader reads in order: a fault is that of the first offending line, and is what the lines
before it and the line itself give; and of a text that is accepted the first lines are accepted as
well, with a part of its result. -/
structure ReadsInOrder (read : String → Except Fault ρ)
    (Blames : ρ → NumberedLine → Fault → Prop) (IsPart : ρ → ρ → Prop) : Prop where
  /-- A text that is rejected has one first offending line. -/
  first : ∀ text fault, read text = .error fault → ∃! number, FailsAt read text fault number
  /-- The fault is about that line, and about the result of the lines before it. -/
  blames : ∀ text fault number, FailsAt read text fault number → ∃ result raw,
    read (firstLines (number - 1) text) = .ok result ∧
      (physicalLines text.toList)[number - 1]? = some raw ∧ Blames result (number, raw) fault
  /-- A text that is accepted may be cut behind any line. -/
  part : ∀ text result, read text = .ok result → ∀ count, ∃ cut,
    read (firstLines count text) = .ok cut ∧ IsPart cut result

theorem FailsAt.unique {read : String → Except Fault ρ} {text : String} {fault : Fault}
    {number other : Nat} (h : FailsAt read text fault number)
    (hother : FailsAt read text fault other) : number = other := by
  -- of two such lines, the text before the later one would be accepted and rejected
  have hnot : ∀ {a b}, FailsAt read text fault a → FailsAt read text fault b → ¬ a < b := by
    intro a b ha hb hlt
    obtain ⟨result, hok⟩ := hb.accepted
    have herror := ha.rejected (b - 1) (by omega) (by have := hb.isLine; omega)
    rw [hok] at herror
    cases herror
  have hle := hnot h hother
  have hge := hnot hother h
  omega

theorem exists_failsAt {start : σ} {finish : σ → ρ} {text : String} {fault : Fault}
    (h : readWith step start finish text = .error fault) :
    ∃ number, FailsAt (readWith step start finish) text fault number := by
  rw [readWith_eq, Except.map_eq_error_iff] at h
  obtain ⟨count, hlt, ⟨state, hok⟩, herror⟩ := exists_of_foldlM_eq_error h
  rw [length_numberFrom] at hlt
  refine ⟨count + 1, ⟨by omega, hlt⟩, ⟨finish state.2, ?_⟩, fun more hle _ => ?_⟩
  · rw [Nat.add_sub_cancel, readWith_firstLines_eq, hok]
    rfl
  · rw [readWith_firstLines_eq, foldlM_take_of_eq_error hle herror]
    rfl

/-- The first offending line is refused by the reader that has taken the lines before it. -/
theorem FailsAt.advance_eq_error {start : σ} {finish : σ → ρ} {text : String} {fault : Fault}
    {number : Nat} (h : FailsAt (readWith step start finish) text fault number) :
    ∃ state raw, readWith step start finish (firstLines (number - 1) text) = .ok (finish state.2) ∧
      (physicalLines text.toList)[number - 1]? = some raw ∧
      advance step state (number, raw) = .error fault := by
  obtain ⟨count, rfl⟩ : ∃ count, number = count + 1 := ⟨number - 1, by have := h.isLine; omega⟩
  have hlt : count < (physicalLines text.toList).length := h.isLine.2
  have hraw := List.getElem?_eq_getElem hlt
  have hnumbered : (numberFrom 1 (physicalLines text.toList))[count]? =
      some (count + 1, (physicalLines text.toList)[count]) := by
    rw [getElem?_numberFrom, hraw, Nat.add_comm 1 count]
    rfl
  obtain ⟨result, hresult⟩ := h.accepted
  have hfault := h.rejected (count + 1) (le_refl _) hlt
  rw [Nat.add_sub_cancel] at hresult ⊢
  rw [readWith_firstLines_eq, Except.map_eq_error_iff, foldlM_take_succ hnumbered] at hfault
  rw [readWith_firstLines_eq, Except.map_eq_ok_iff] at hresult
  obtain ⟨state, hstate, -⟩ := hresult
  rw [hstate] at hfault
  refine ⟨state, _, ?_, hraw, hfault⟩
  rw [readWith_firstLines_eq, hstate]
  rfl

/-- **Reading in order** is a matter of single lines: of what is told of one that is refused, and of
what one that is taken makes of the result. -/
theorem readsInOrder_readWith {start : σ} {finish : σ → ρ}
    {Blames : ρ → NumberedLine → Fault → Prop} {IsPart : ρ → ρ → Prop}
    (hline : ∀ result number raw problem,
      Blames result (number, raw) (.line problem number (String.ofList (trim raw))))
    (hrefused : ∀ s number depth text raw fault, IsIndented depth text raw →
      step s (.structural number depth text) = .error fault → Blames (finish s) (number, raw) fault)
    (hrefl : ∀ s, IsPart (finish s) (finish s))
    (htaken : ∀ s s' number depth text raw s'', IsPart (finish s) (finish s') →
      IsIndented depth text raw → step s' (.structural number depth text) = .ok s'' →
      IsPart (finish s) (finish s'')) :
    ReadsInOrder (readWith step start finish) Blames IsPart where
  first text fault h := by
    obtain ⟨number, hnumber⟩ := exists_failsAt h
    exact ⟨number, hnumber, fun other hother => hother.unique hnumber⟩
  blames text fault number h := by
    obtain ⟨state, raw, hresult, hraw, hfault⟩ := h.advance_eq_error
    refine ⟨_, raw, hresult, hraw, ?_⟩
    rcases advance_eq_error hfault with ⟨problem, rfl⟩ | ⟨depth, shown, hindented, hstep⟩
    · exact hline _ number raw problem
    · exact hrefused state.2 number depth shown raw fault hindented hstep
  part text result h count := by
    rw [readWith_eq, Except.map_eq_ok_iff] at h
    obtain ⟨state', hok, rfl⟩ := h
    obtain ⟨state, htake, hdrop⟩ := foldlM_take_of_eq_ok hok count
    refine ⟨finish state.2, ?_, ?_⟩
    · rw [readWith_firstLines_eq, htake]
      rfl
    · -- each line that follows keeps the result of the first lines as a part
      refine foldlM_preserves (fun state' => IsPart (finish state.2) (finish state'.2))
        (fun middle line next hmiddle hnext => ?_) (hrefl state.2) hdrop
      rcases advance_eq_ok hnext with hsame | ⟨depth, text, hraw, hstep⟩
      · rwa [hsame]
      · exact htaken _ _ _ depth text _ _ hmiddle hraw hstep

end ApiShorthand
