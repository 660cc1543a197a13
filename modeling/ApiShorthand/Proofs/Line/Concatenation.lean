import ApiShorthand.Proofs.Line.Renumbering

/-!
# Texts one behind the other

A reader of declarations starts a new one or changes the last one, and takes care that no key is
declared twice (`ExtendsItems`). If it accepts two texts then it reads the one behind the other to
what it reads each of them to, with the lines of the second text counted on; or else it refuses the
first key of the second text that is also a key of the first one (`readsJoined_readWith`).
-/

namespace ApiShorthand

open Text

/-! ### Keys in two lists -/

section Keys

variable {κ : Type} {earlier keys more : List κ} {k : κ}

/-- The first of some keys that is also among earlier ones. -/
def IsFirstShared (earlier keys : List κ) (k : κ) : Prop :=
  ∃ before after, keys = before ++ k :: after ∧ k ∈ earlier ∧ ∀ other ∈ before, other ∉ earlier

theorem IsFirstShared.mem_both (h : IsFirstShared earlier keys k) : k ∈ earlier ∧ k ∈ keys := by
  obtain ⟨before, after, rfl, hk, -⟩ := h
  exact ⟨hk, by simp⟩

theorem isFirstShared_of_isPrefix (hkept : keys ++ [k] <+: more) (hk : k ∈ earlier)
    (hkeys : ∀ other ∈ keys, other ∉ earlier) : IsFirstShared earlier more k := by
  obtain ⟨after, rfl⟩ := hkept
  exact ⟨keys, after, by simp, hk, hkeys⟩

end Keys

/-! ### Steps of a reader of declarations -/

variable {ι κ : Type} {key : ι → κ} {repeated : κ → Fault}
  {step : List ι → Line → Except Fault (List ι)}

/-- What a line that is accepted makes of the declarations before it, the last one first. It would
do the same behind any earlier declarations, unless the key that it declares is taken there. -/
inductive ExtendsItems (key : ι → κ) (repeated : κ → Fault)
    (step : List ι → Line → Except Fault (List ι)) (items : List ι) (line : Line) : List ι → Prop
  | new {item : ι}
      (hfree : ∀ earlier, key item ∉ earlier.map key →
        step (items ++ earlier) line = .ok (item :: (items ++ earlier)))
      (htaken : ∀ earlier, key item ∈ earlier.map key →
        step (items ++ earlier) line = .error (repeated (key item))) :
      ExtendsItems key repeated step items line (item :: items)
  | changed {items' : List ι} (hkeys : items'.map key = items.map key)
      (hstep : ∀ earlier, step (items ++ earlier) line = .ok (items' ++ earlier)) :
      ExtendsItems key repeated step items line items'

/-- A reader of declarations: lines that are nested deeper than the parts of a declaration are
refused, and the other ones extend the declarations. -/
structure ReadsItems (key : ι → κ) (repeated : κ → Fault)
    (step : List ι → Line → Except Fault (List ι)) : Prop where
  depth_le : ∀ {items items' : List ι} {line : Line}, step items line = .ok items' →
    line.depth ≤ 1
  extends_items : ∀ {items items' : List ι} {line : Line}, step items line = .ok items' →
    ExtendsItems key repeated step items line items'

/-- A line that declares an item, unless its key is taken, extends the declarations. -/
theorem extendsItems_of_header {items items' : List ι} {line : Line} {item : ι}
    {taken : List ι → Bool}
    (hstep : ∀ items, step items line =
      if taken items then .error (repeated (key item)) else .ok (item :: items))
    (htaken : ∀ items, taken items = true ↔ key item ∈ items.map key)
    (h : step items line = .ok items') : ExtendsItems key repeated step items line items' := by
  rw [hstep] at h
  split_ifs at h with hitems
  cases h
  rw [htaken] at hitems
  have happend (earlier : List ι) :
      key item ∈ (items ++ earlier).map key ↔ key item ∈ earlier.map key := by
    rw [List.map_append, List.mem_append, or_iff_right hitems]
  refine .new (fun earlier hfree => ?_) (fun earlier hmem => ?_)
  · rw [hstep, if_neg (by rwa [htaken, happend])]
  · rw [hstep, if_pos (by rwa [htaken, happend])]

/-- A line that changes the last item, but not its key, extends the declarations. -/
theorem extendsItems_of_part {items items' : List ι} {line : Line} {change : ι → Except Fault ι}
    {outside : Fault} (hnone : step [] line = .error outside)
    (hstep : ∀ item earlier, step (item :: earlier) line = (change item).map (· :: earlier))
    (hkey : ∀ item item', change item = .ok item' → key item' = key item)
    (h : step items line = .ok items') : ExtendsItems key repeated step items line items' := by
  cases items with
  | nil =>
    rw [hnone] at h
    cases h
  | cons item others =>
    rw [hstep, Except.map_eq_ok_iff] at h
    obtain ⟨item', hitem, rfl⟩ := h
    refine .changed (by rw [List.map_cons, List.map_cons, hkey item item' hitem]) fun earlier => ?_
    rw [List.cons_append, hstep, hitem]
    rfl

/-- The depth of the line before does not count for a line that is not nested deeper. -/
theorem Line.read_of_depth_le {previous number : Nat} {raw : List Char} {line : Line}
    (h : read previous number raw = .ok line) (hdepth : line.depth ≤ 1) (other : Nat) :
    read other number raw = .ok line := by
  rw [read] at h ⊢
  cases hindentation : depthOf previous (indentation raw) with
  | error problem =>
    rw [hindentation] at h
    cases h
  | ok depth =>
    rw [hindentation] at h
    cases h
    have hother : depthOf other (indentation raw) = .ok depth := by
      rw [depthOf_eq_ok_iff] at hindentation ⊢
      obtain ⟨hblank, -⟩ := hindentation
      exact ⟨hblank, by have : depth ≤ 1 := hdepth; omega⟩
    rw [hother]

/-- The keys that are declared so far, in their order. -/
def keysOf (key : ι → κ) (items : List ι) : List κ :=
  items.reverse.map key

theorem mem_keysOf {items : List ι} {k : κ} : k ∈ keysOf key items ↔ k ∈ items.map key := by
  rw [keysOf, List.map_reverse, List.mem_reverse]

theorem keysOf_cons (item : ι) (items : List ι) :
    keysOf key (item :: items) = keysOf key items ++ [key item] := by
  simp [keysOf]

theorem ExtendsItems.keysOf_isPrefix {items items' : List ι} {line : Line}
    (h : ExtendsItems key repeated step items line items') :
    keysOf key items <+: keysOf key items' := by
  cases h with
  | @new item _ _ =>
    rw [keysOf_cons]
    exact List.prefix_append _ _
  | changed hkeys _ =>
    have hsame : keysOf key items = keysOf key items' := by
      rw [keysOf, keysOf, List.map_reverse, List.map_reverse, hkeys]
    exact hsame ▸ List.prefix_refl _

/-- One line behind earlier declarations: it is accepted there, or it declares a key that is
taken. -/
theorem ExtendsItems.behind {items items' : List ι} {line : Line}
    (h : ExtendsItems key repeated step items line items') (earlier : List ι)
    (hitems : ∀ k ∈ keysOf key items, k ∉ keysOf key earlier) :
    ((∀ k ∈ keysOf key items', k ∉ keysOf key earlier) ∧
      step (items ++ earlier) line = .ok (items' ++ earlier)) ∨
    ∃ k ∈ keysOf key earlier, keysOf key items' = keysOf key items ++ [k] ∧
      step (items ++ earlier) line = .error (repeated k) := by
  cases h with
  | @new item hfree htaken =>
    by_cases hitem : key item ∈ keysOf key earlier
    · right
      exact ⟨key item, hitem, keysOf_cons item items, htaken earlier (mem_keysOf.1 hitem)⟩
    · left
      refine ⟨fun k hk => ?_, hfree earlier (mem_keysOf.not.1 hitem)⟩
      rw [keysOf_cons, List.mem_append, List.mem_singleton] at hk
      rcases hk with hk | rfl
      · exact hitems k hk
      · exact hitem
  | changed hkeys hstep =>
    left
    refine ⟨fun k hk => hitems k ?_, hstep earlier⟩
    rwa [mem_keysOf, hkeys, ← mem_keysOf] at hk

/-! ### Runs of a reader of declarations -/

namespace ReadsItems

theorem advance_eq_ok (h : ReadsItems key repeated step) {state state' : Nat × List ι}
    {number : Nat} {raw : List Char} (hskipped : ¬ IsSkipped raw)
    (hadvance : advance step state (number, raw) = .ok state') :
    ∃ line : Line, (∀ previous, Line.read previous number raw = .ok line) ∧
      ExtendsItems key repeated step state.2 line state'.2 := by
  rw [advance, if_neg hskipped, Except.bind_eq_ok_iff] at hadvance
  obtain ⟨line, hread, hstep⟩ := hadvance
  obtain ⟨items', hitems, rfl⟩ := Except.map_eq_ok_iff.1 hstep
  exact ⟨line, Line.read_of_depth_le hread (h.depth_le hitems), h.extends_items hitems⟩

/-- What is declared stays declared. -/
theorem keysOf_isPrefix (h : ReadsItems key repeated step) {lines : List NumberedLine}
    {state state' : Nat × List ι} (hlines : lines.foldlM (advance step) state = .ok state') :
    keysOf key state.2 <+: keysOf key state'.2 := by
  refine foldlM_preserves (fun s => keysOf key state.2 <+: keysOf key s.2) ?_
    (List.prefix_refl _) hlines
  rintro s ⟨number, raw⟩ s' hkept hadvance
  by_cases hskipped : IsSkipped raw
  · rw [advance, if_pos hskipped] at hadvance
    cases hadvance
    exact hkept
  · obtain ⟨line, -, hextends⟩ := h.advance_eq_ok hskipped hadvance
    exact hkept.trans hextends.keysOf_isPrefix

/-- **Reading behind earlier declarations**: what a reader accepts it accepts behind any earlier
declarations too, and makes the same of it, until a key is taken there. -/
theorem foldlM_behind (h : ReadsItems key repeated step) {lines : List NumberedLine}
    {previous : Nat} {items : List ι} {state' : Nat × List ι}
    (hlines : lines.foldlM (advance step) (previous, items) = .ok state') (earlier : List ι)
    (hitems : ∀ k ∈ keysOf key items, k ∉ keysOf key earlier) (other : Nat) :
    ((∀ k ∈ keysOf key state'.2, k ∉ keysOf key earlier) ∧
      ∃ depth, lines.foldlM (advance step) (other, items ++ earlier) =
        .ok (depth, state'.2 ++ earlier)) ∨
    ∃ k, IsFirstShared (keysOf key earlier) (keysOf key state'.2) k ∧
      lines.foldlM (advance step) (other, items ++ earlier) = .error (repeated k) := by
  induction lines generalizing previous items other with
  | nil =>
    cases hlines
    exact Or.inl ⟨hitems, other, rfl⟩
  | cons line lines ih =>
    obtain ⟨number, raw⟩ := line
    rw [List.foldlM_cons, Except.bind_eq_ok_iff] at hlines
    obtain ⟨⟨depth, items'⟩, hadvance, hrest⟩ := hlines
    rw [List.foldlM_cons]
    by_cases hskipped : IsSkipped raw
    · rw [advance, if_pos hskipped] at hadvance ⊢
      cases hadvance
      exact ih hrest hitems other
    · obtain ⟨line, hread, hextends⟩ := h.advance_eq_ok hskipped hadvance
      rw [advance, if_neg hskipped, hread other]
      rcases hextends.behind earlier hitems with ⟨hitems', hstep⟩ | ⟨k, hk, hkeys, hstep⟩
      · have hbehind := ih hrest hitems' line.depth
        simpa only [bind, Except.bind, hstep, Except.map] using hbehind
      · right
        have hkept : keysOf key items ++ [k] <+: keysOf key state'.2 := by
          rw [← hkeys]
          exact h.keysOf_isPrefix hrest
        refine ⟨k, isFirstShared_of_isPrefix hkept hk hitems, ?_⟩
        simp only [bind, Except.bind, hstep, Except.map]

end ReadsItems

/-! ### Readers of two texts -/

/-- A reader of declarations reads two texts that it accepts, the one behind the other: to the
declarations of the first text and those of the second one, `moved` by the lines of the first; or it
refuses the first key of the second text that the first text declares too. -/
def ReadsJoined (readAll : String → Except Fault (List ι)) (key : ι → κ) (repeated : κ → Fault)
    (moved : Nat → ι → ι) : Prop :=
  ∀ text other items others, EndsLine text.toList → readAll text = .ok items →
    readAll other = .ok others →
    ((∀ k ∈ others.map key, k ∉ items.map key) ∧
      readAll (text ++ other) =
        .ok (items ++ others.map (moved (physicalLines text.toList).length))) ∨
    ∃ k, IsFirstShared (items.map key) (others.map key) k ∧
      readAll (text ++ other) = .error (repeated k)

variable {renumbered : (Nat → Nat → Prop) → ι → ι → Prop} {moved : Nat → ι → ι}

theorem foldlM_shownFrom_moved
    (hparametric : IsParametric (fun same => List.Forall₂ (renumbered same)) step)
    (hmoved : ∀ count item item',
      renumbered (fun number number' => number' = number + count) item item' →
        item' = moved count item)
    {text : List Char} {depth : Nat} {items : List ι}
    (h : (shownFrom 1 text).foldlM (advance step) (0, []) = .ok (depth, items)) (count : Nat) :
    (shownFrom (1 + count) text).foldlM (advance step) (0, []) =
      .ok (depth, items.map (moved count)) := by
  have hshown : List.Forall₂ (SameShown fun number number' => number' = number + count)
      (shownFrom 1 text) (shownFrom (1 + count) text) :=
    shownFrom_renumbered 1 (1 + count) text fun index _ => by omega
  have hstart : RelatedBehind (fun same => List.Forall₂ (renumbered same))
      (fun number number' => number' = number + count) (0, []) (0, []) := ⟨rfl, .nil⟩
  obtain ⟨⟨depth', items'⟩, hread, hdepth, hitems⟩ :=
    (hparametric.foldlM_corresponds hstart hshown).exists_ok h
  have hmap : items' = items.map (moved count) := eq_map_of_forall₂ (hmoved count) hitems
  have hsame : depth = depth' := hdepth
  rw [hread, hmap, hsame]

/-- **Reading two texts**, the one behind the other. -/
theorem readsJoined_readWith (hstep : ReadsItems key repeated step)
    (hparametric : IsParametric (fun same => List.Forall₂ (renumbered same)) step)
    (hmoved : ∀ count item item',
      renumbered (fun number number' => number' = number + count) item item' →
        item' = moved count item)
    (hkey : ∀ count item, key (moved count item) = key item) :
    ReadsJoined (readWith step [] List.reverse) key repeated moved := by
  intro text other items others hends htext hother
  rw [readWith_eq_shown, Except.map_eq_ok_iff] at htext hother
  obtain ⟨⟨depth, reversed⟩, htext, rfl⟩ := htext
  obtain ⟨⟨depth', reversed'⟩, hother, rfl⟩ := hother
  set count := (physicalLines text.toList).length with hcount
  have hmovedOther := foldlM_shownFrom_moved hparametric hmoved hother count
  have hkeys : keysOf key (reversed'.map (moved count)) = keysOf key reversed' := by
    simp [keysOf, hkey, Function.comp_def]
  have hread : readWith step [] List.reverse (text ++ other) =
      ((shownFrom (1 + count) other.toList).foldlM (advance step) (depth, reversed)).map
        fun state => state.2.reverse := by
    rw [readWith_eq_shown, String.toList_append, shownFrom_append hends, List.foldlM_append, htext]
    rfl
  rw [hread]
  have hbehind := hstep.foldlM_behind hmovedOther reversed (by simp [keysOf]) depth
  rw [hkeys, List.nil_append] at hbehind
  rcases hbehind with ⟨hdisjoint, depth'', hok⟩ | ⟨k, hshared, herror⟩
  · left
    refine ⟨hdisjoint, ?_⟩
    rw [hok]
    simp [Except.map]
  · right
    refine ⟨k, hshared, ?_⟩
    rw [herror]
    rfl

end ApiShorthand
