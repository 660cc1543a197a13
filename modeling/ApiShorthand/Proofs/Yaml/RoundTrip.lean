import ApiShorthand.Proofs.Yaml.Node

/-!
# Printed values are read back

A value is regular if its texts have no white space, the keys of its objects are distinct, and it
is not nested too deeply. A regular value is printed with characters that can stand in a YAML text
(`Regular.onLines`), its text is read as its tokens (`Regular.scans`), the tokens as its node
(`Regular.isRead`), and the node stands for it (`Regular.value_ofJson`): `read_print` puts the four
together.
-/

namespace ApiShorthand.Yaml

open Printer

/-- A value that nests to a depth at most, whose texts have no white space and whose keys are told
apart. -/
inductive Regular : (depth : Nat) → Json → Prop
  /-- The value null. -/
  | null {depth : Nat} : Regular depth .null
  /-- A truth value. -/
  | bool {depth : Nat} (value : Bool) : Regular depth (.bool value)
  /-- A text without white space. -/
  | string {depth : Nat} {text : String} (htext : Unbroken text.toList) :
    Regular depth (.string text)
  /-- An array of such values. -/
  | array {depth : Nat} {items : List Json} (hitems : ∀ item ∈ items, Regular depth item) :
    Regular (depth + 1) (.array items)
  /-- An object of such values under different keys. -/
  | object {depth : Nat} {entries : List (String × Json)}
    (hdistinct : (entries.map Prod.fst).Nodup) (hkeys : ∀ entry ∈ entries, Unbroken entry.1.toList)
    (hvalues : ∀ entry ∈ entries, Regular depth entry.2) : Regular (depth + 1) (.object entries)

namespace Regular

theorem mono {depth deeper : Nat} {value : Json} (h : Regular depth value) (hle : depth ≤ deeper) :
    Regular deeper value := by
  induction h generalizing deeper with
  | null => exact .null
  | bool value => exact .bool value
  | string htext => exact .string htext
  | @array depth items _ ih =>
    obtain ⟨more, rfl⟩ : ∃ more, deeper = more + 1 := ⟨deeper - 1, by omega⟩
    exact .array fun item hitem => ih item hitem (by omega)
  | @object depth entries hdistinct hkeys _ ih =>
    obtain ⟨more, rfl⟩ : ∃ more, deeper = more + 1 := ⟨deeper - 1, by omega⟩
    exact .object hdistinct hkeys fun entry hentry => ih entry hentry (by omega)

variable {depth : Nat} {value : Json}

/-- The text of a regular value is read as its tokens. -/
theorem scans (h : Regular depth value) : Scans value := by
  induction h with
  | null => exact scans_null
  | bool value => exact scans_bool value
  | string htext => exact scans_string htext
  | array _ ih => exact scans_array ih
  | object _ hkeys _ ih => exact scans_object hkeys ih

/-- The tokens of a regular value are read as its node. -/
theorem isRead (h : Regular depth value) : Node.IsRead value := by
  induction h with
  | null => exact Node.isRead_scalar (fun _ => rfl) rfl
  | bool value => cases value <;> exact Node.isRead_scalar (fun _ => rfl) rfl
  | string htext => exact Node.isRead_scalar (fun _ => rfl) rfl
  | array _ ih => exact Node.isRead_array ih
  | object _ _ _ ih => exact Node.isRead_object ih

/-- The node of a regular value stands for it. -/
theorem value_ofJson (h : Regular depth value) (document : Document) :
    document.value depth (Node.ofJson value) = pure value := by
  induction h with
  | null => exact Node.value_null
  | bool value => exact Node.value_bool value
  | string htext => exact Node.value_string htext
  | array _ ih => exact Node.value_array ih
  | object hdistinct _ _ ih => exact Node.value_object hdistinct ih

end Regular

/-! ### What is printed -/

/-- Characters that can stand in a YAML text, on lines that end with a line feed. -/
def OnLines (text : List Char) : Prop :=
  ∀ c ∈ text, Writable c ∨ c = '\n'

theorem OnLines.append {first second : List Char} (h : OnLines first) (h' : OnLines second) :
    OnLines (first ++ second) :=
  List.forall_mem_append.2 ⟨h, h'⟩

theorem onLines_of_writable {text : List Char} (h : ∀ c ∈ text, Writable c) : OnLines text :=
  fun c hc => .inl (h c hc)

theorem onLines_spaces (column : Nat) : OnLines (spaces column) := by
  intro c hc
  rw [spaces] at hc
  rw [List.eq_of_mem_replicate hc]
  exact .inl ⟨by decide, by decide⟩

theorem onLines_closed {text : List Char} (h : OnLines text) : OnLines (closed text) := by
  rw [closed]
  split
  · exact h
  · exact h.append (List.forall_mem_singleton.2 (.inr rfl))

theorem onLines_lead (place : Place) : OnLines place.lead := by
  cases place with
  | inline column => exact nofun
  | underKey column => exact onLines_spaces 1

theorem onLines_opening (column : Nat) (place : Place) : OnLines (place.opening column) := by
  cases place with
  | inline c => exact nofun
  | underKey c => exact List.forall_mem_cons.2 ⟨.inr rfl, onLines_spaces column⟩

/-- A text of a few fixed characters. -/
theorem onLines_of_all {text : List Char}
    (h : text.all (fun c => (isReadable c && !isBreak c) || c == '\n') = true) : OnLines text := by
  intro c hc
  have hchar := List.all_eq_true.1 h c hc
  rw [Bool.or_eq_true, Bool.and_eq_true, Bool.not_eq_true', beq_iff_eq] at hchar
  exact hchar

theorem onLines_keyChars {key : String} (hkey : Unbroken key.toList) (column : Nat) :
    OnLines (keyChars column key) := by
  have htext := onLines_of_writable (writable_textChars hkey (column + 2))
  rw [keyChars]
  split
  · exact htext.append (onLines_of_all (by decide))
  · have hmark : OnLines ['?', ' '] := onLines_of_all (by decide)
    exact hmark.append (((onLines_closed htext).append (onLines_spaces column)).append
      (onLines_of_all (by decide)))

/-- Wherever a value is printed, its characters can stand in a YAML text. -/
def IsOnLines (value : Json) : Prop :=
  ∀ place : Place, OnLines (valueChars place value)

theorem onLines_itemsChars {items : List Json} (hitems : ∀ item ∈ items, IsOnLines item)
    (column : Nat) : OnLines (itemsChars column items) := by
  induction items with
  | nil => exact nofun
  | cons item items ih =>
    obtain ⟨hitem, hrest⟩ := List.forall_mem_cons.1 hitems
    have hdash : OnLines ['-', ' '] := onLines_of_all (by decide)
    rw [itemsChars]
    exact (onLines_spaces column).append (hdash.append ((hitem _).append (ih hrest)))

theorem onLines_entriesChars {entries : List (String × Json)}
    (hkeys : ∀ entry ∈ entries, Unbroken entry.1.toList)
    (hvalues : ∀ entry ∈ entries, IsOnLines entry.2) (column : Nat) :
    OnLines (entriesChars column entries) := by
  induction entries with
  | nil => exact nofun
  | cons entry entries ih =>
    obtain ⟨key, value⟩ := entry
    obtain ⟨hkey, hkeysRest⟩ := List.forall_mem_cons.1 hkeys
    obtain ⟨hvalue, hvaluesRest⟩ := List.forall_mem_cons.1 hvalues
    rw [entriesChars]
    exact ((onLines_spaces column).append (onLines_keyChars hkey column)).append
      ((hvalue _).append (ih hkeysRest hvaluesRest))

theorem Regular.onLines {depth : Nat} {value : Json} (h : Regular depth value) :
    IsOnLines value := by
  induction h with
  | null =>
    intro place
    exact (onLines_lead place).append (onLines_of_all (by decide))
  | bool value =>
    intro place
    cases value <;> exact (onLines_lead place).append (onLines_of_all (by decide))
  | string htext =>
    intro place
    rw [valueChars]
    exact (onLines_lead place).append
      (onLines_closed (onLines_of_writable (writable_textChars htext _)))
  | @array depth items _ ih =>
    intro place
    cases items with
    | nil => exact (onLines_lead place).append (onLines_of_all (by decide))
    | cons item items =>
      obtain ⟨hitem, hrest⟩ := List.forall_mem_cons.1 ih
      have hdash : OnLines ['-', ' '] := onLines_of_all (by decide)
      rw [valueChars]
      exact (onLines_opening _ place).append
        (hdash.append ((hitem _).append (onLines_itemsChars hrest _)))
  | @object depth entries _ hkeys _ ih =>
    intro place
    cases entries with
    | nil => exact (onLines_lead place).append (onLines_of_all (by decide))
    | cons entry entries =>
      obtain ⟨key, value⟩ := entry
      obtain ⟨hkey, hkeysRest⟩ := List.forall_mem_cons.1 hkeys
      obtain ⟨hvalue, hvaluesRest⟩ := List.forall_mem_cons.1 ih
      rw [valueChars]
      exact ((onLines_opening _ place).append (onLines_keyChars hkey _)).append
        ((hvalue _).append (onLines_entriesChars hkeysRest hvaluesRest _))

/-! ### Reading what is printed -/

/-- The column of a text does not matter, where it has one line. -/
theorem textChars_congr {text : List Char} (h : Unbroken text) (column other : Nat) :
    textChars column text = textChars other text := by
  rcases Style.ofChars_cases h with ⟨hstyle, -⟩ | ⟨hstyle, -⟩ | hstyle
  · rw [textChars_plain hstyle, textChars_plain hstyle]
  · rw [textChars_single hstyle, textChars_single hstyle, singleChars_eq h, singleChars_eq h]
  · rw [textChars_double hstyle, textChars_double hstyle]

namespace Regular

variable {depth : Nat} {value : Json}

theorem chars_eq (h : Regular depth value) : chars value = valueChars (.inline 0) value := by
  cases h with
  | null | bool _ | array _ | object _ _ _ => rfl
  | string htext =>
    rw [chars, valueChars, textChars_congr htext 2 (Place.inline 0).textColumn]
    rfl

/-- The characters of a regular value are put in their places. -/
theorem ofChars_eq (h : Regular depth value) :
    Spot.ofChars (chars value) = .ok (spotsAt Position.start (chars value)) := by
  have hlines : OnLines (chars value) := h.chars_eq ▸ h.onLines (.inline 0)
  have hreadable : (chars value).all isReadable = true := by
    refine List.all_eq_true.2 fun c hc => ?_
    rcases hlines c hc with hwritable | rfl
    · exact hwritable.1
    · decide
  have hbreaks : BreaksByFeed (chars value) := by
    intro c hc hbreak
    refine (hlines c hc).resolve_left fun hwritable => ?_
    rw [hwritable.2] at hbreak
    cases hbreak
  rw [Spot.ofChars, if_pos hreadable]
  exact congrArg _ (listFrom_eq hbreaks Position.start)

theorem ofSpots_eq (h : Regular depth value) :
    Token.ofSpots (spotsAt Position.start (chars value)) = .ok (valueTokens false value) := by
  have hfits : (Place.inline 0).Fits Blocks.start Position.start :=
    ⟨rfl, show (-1 : Int) < 0 by decide⟩
  obtain ⟨-, hreads⟩ := h.scans (.inline 0) Blocks.start Position.start [] hfits .nil
  rw [Blocks.Reads, List.append_nil, ← h.chars_eq] at hreads
  have hlength : (chars value).length ≤ (spotsAt Position.start (chars value)).length :=
    Nat.le_of_eq (length_spotsAt _ _).symm
  have hfinish := hreads.run_eq rfl hlength
  rw [Token.ofSpots]
  refine hfinish.trans ?_
  show Except.ok ((valueTokens false value).reverse ++ []).reverse = _
  rw [List.append_nil, List.reverse_reverse]

theorem ofTokens?_eq (h : Regular depth value) :
    Node.ofTokens? (valueTokens false value) = .ok (some (Node.ofJson value)) := by
  have hwhole : Node.readWhole Node.defaultHandles (valueTokens false value) =
      .ok (Node.ofJson value) := by
    have hread := h.isRead Node.defaultHandles false .block
      (2 * (valueTokens false value).length + 2) [] [] (by decide) nofun (Nat.le_add_right _ 2)
    rw [List.append_nil] at hread
    rw [Node.readWhole, hread]
    rfl
  obtain ⟨token, rest, htokens, hstarts⟩ := Node.exists_valueTokens false value
  have himplicit : Node.startsExplicitly token = false := by
    cases token <;> first | rfl | cases hstarts
  rw [htokens] at hwhole ⊢
  rw [Node.ofTokens?, himplicit, if_neg Bool.false_ne_true, hwhole]
  rfl

end Regular

/-- A regular value is read from its text. -/
theorem read_print {value : Json} (h : Regular Document.maxDepth value) :
    Yaml.read (Yaml.print value) = .ok value := by
  rw [Yaml.read, Yaml.print, String.toList_ofList, h.ofChars_eq]
  show (Token.ofSpots (spotsAt Position.start (chars value)) >>= fun tokens => _) = _
  rw [h.ofSpots_eq]
  show (Node.ofTokens? (valueTokens false value) >>= fun node => _) = _
  rw [h.ofTokens?_eq]
  show (Document.ofNode (Node.ofJson value)).toJson = _
  rw [Document.toJson]
  show ((Document.ofNode (Node.ofJson value)).value Document.maxDepth (Node.ofJson value)).run _ >>=
    _ = _
  rw [h.value_ofJson]
  rfl

end ApiShorthand.Yaml
