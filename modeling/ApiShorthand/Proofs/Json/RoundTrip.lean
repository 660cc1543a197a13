import ApiShorthand.Proofs.Json.Proper
import ApiShorthand.Proofs.Json.Reading

/-!
# Printed values are JSON texts

The indented form of a proper value without floating-point numbers stands for that value by the
grammar of JSON, and for no other one (`valueText_indented_iff`); so it is read back, with the keys
of every object in their order (`ofString?_indented`). The proof is an induction on the value, and
within an array or an object on its items or entries.
-/

namespace ApiShorthand.Json

/-! ### Values without floating-point numbers -/

mutual

/-- Whether there is a floating-point number in a value. -/
def hasFloat : Json → Bool
  | float _ => true
  | array items => itemsHaveFloat items
  | object entries => entriesHaveFloat entries
  | _ => false

/-- Whether there is a floating-point number in one of some items. -/
def itemsHaveFloat : List Json → Bool
  | [] => false
  | item :: items => hasFloat item || itemsHaveFloat items

/-- Whether there is a floating-point number in one of some entries. -/
def entriesHaveFloat : List (String × Json) → Bool
  | [] => false
  | (_, value) :: entries => hasFloat value || entriesHaveFloat entries

end

theorem hasFloat_array {items : List Json} :
    hasFloat (array items) = false ↔ ∀ item ∈ items, hasFloat item = false := by
  rw [hasFloat]
  induction items with
  | nil => simp [itemsHaveFloat]
  | cons item items ih => rw [itemsHaveFloat, Bool.or_eq_false_iff, ih, List.forall_mem_cons]

theorem hasFloat_object {entries : List (String × Json)} :
    hasFloat (object entries) = false ↔ ∀ entry ∈ entries, hasFloat entry.2 = false := by
  rw [hasFloat]
  induction entries with
  | nil => simp [entriesHaveFloat]
  | cons entry entries ih =>
    rw [entriesHaveFloat, Bool.or_eq_false_iff, ih, List.forall_mem_cons]

/-! ### Forms of values -/

theorem isGap_newline (level : Nat) : IsGap (newline level) := by
  rw [IsGap, newline, List.forall_mem_cons]
  refine ⟨Or.inr (Or.inr (Or.inl rfl)), fun c hc => ?_⟩
  exact Or.inl (List.eq_of_mem_replicate hc)

theorem isGap_nil : IsGap [] :=
  List.forall_mem_nil _

theorem keyText_stringChars (level : Nat) (key : String) :
    KeyText (newline level ++ (stringChars key ++ [':'])) key := by
  have hkey := KeyText.mk (isGap_newline level) (stringTail_flatMap_escape key.toList) isGap_nil
  rwa [String.ofList_toList, List.nil_append] at hkey

/-- A value stands for itself in its indented form at any level. -/
def IsWritten (value : Json) : Prop :=
  ∀ level, ValueText (indentedChars level value) value

/-- Items that are written are written one after the other, up to the closing bracket. -/
theorem itemsText_indentedItems {level : Nat} {item : Json} {items : List Json}
    (hitem : IsWritten item) (hitems : ∀ item ∈ items, IsWritten item) :
    ItemsText (newline (level + 1) ++ (indentedChars (level + 1) item ++ indentedItems level items))
      (item :: items) := by
  induction items generalizing item with
  | nil =>
    have hlast := ItemsText.last
      (ValueText.padded (isGap_newline (level + 1)) (hitem (level + 1)) (isGap_newline level))
    rw [indentedItems]
    simpa only [List.append_assoc] using hlast
  | cons next items ih =>
    rw [List.forall_mem_cons] at hitems
    have hcons := ItemsText.cons
      (ValueText.padded (isGap_newline (level + 1)) (hitem (level + 1)) isGap_nil)
      (ih hitems.1 hitems.2)
    rw [indentedItems]
    simpa only [List.append_assoc, List.append_nil] using hcons

/-- Entries whose values are written are written one after the other, up to the closing brace. -/
theorem entriesText_indentedEntries (level : Nat) (key : String) {value : Json}
    {entries : List (String × Json)} (hvalue : IsWritten value)
    (hentries : ∀ entry ∈ entries, IsWritten entry.2) :
    EntriesText (newline (level + 1) ++ (stringChars key ++ ':' :: ' ' ::
        (indentedChars (level + 1) value ++ indentedEntries level entries)))
      ((key, value) :: entries) := by
  have hkey := keyText_stringChars (level + 1) key
  have hspace : IsGap [' '] := List.forall_mem_singleton.2 (Or.inl rfl)
  induction entries generalizing key value with
  | nil =>
    have hlast := EntriesText.last hkey
      (ValueText.padded hspace (hvalue (level + 1)) (isGap_newline level))
    rw [indentedEntries]
    simpa only [List.append_assoc, List.cons_append, List.nil_append] using hlast
  | cons next entries ih =>
    rw [List.forall_mem_cons] at hentries
    have hcons := EntriesText.cons hkey (ValueText.padded hspace (hvalue (level + 1)) isGap_nil)
      (ih next.1 hentries.1 hentries.2 (keyText_stringChars (level + 1) next.1))
    rw [indentedEntries]
    simpa only [List.append_assoc, List.cons_append, List.nil_append] using hcons

theorem isWritten_array {items : List Json} (h : ∀ item ∈ items, IsWritten item) :
    IsWritten (array items) := by
  intro level
  cases items with
  | nil =>
    rw [indentedChars]
    exact .emptyArray isGap_nil
  | cons item items =>
    rw [List.forall_mem_cons] at h
    rw [indentedChars, List.append_assoc]
    exact .array (itemsText_indentedItems h.1 h.2)

theorem isWritten_object {entries : List (String × Json)} (hkeys : (Table.keys entries).Nodup)
    (h : ∀ entry ∈ entries, IsWritten entry.2) : IsWritten (object entries) := by
  intro level
  cases entries with
  | nil =>
    rw [indentedChars]
    exact .emptyObject isGap_nil
  | cons entry entries =>
    rw [List.forall_mem_cons] at h
    -- as the keys are distinct, the entries that are written make the table that they come from
    have hobject := ValueText.object (entriesText_indentedEntries level entry.1 h.1 h.2)
    rw [Table.ofList_eq_self hkeys] at hobject
    rwa [indentedChars, List.append_assoc]

theorem isWritten_string (text : String) : IsWritten (string text) := by
  intro level
  have hstring := ValueText.string (stringTail_flatMap_escape text.toList)
  rwa [String.ofList_toList] at hstring

theorem isWritten_int {value : Int} (hmin : minInt ≤ value) (hmax : value ≤ maxInt) :
    IsWritten (int value) := by
  intro level
  obtain ⟨numeral, hnumeral, hvalue⟩ := exists_numeralText_intDigits hmin hmax
  rw [indentedChars]
  exact .number hnumeral hvalue

theorem IsProper.isWritten {value : Json} (h : value.IsProper) (hfloat : value.hasFloat = false) :
    IsWritten value := by
  induction h with
  | null =>
    intro level
    rw [indentedChars]
    exact .null
  | bool value =>
    intro level
    cases value with
    | false =>
      rw [indentedChars]
      exact .false
    | true =>
      rw [indentedChars]
      exact .true
  | int hmin hmax => exact isWritten_int hmin hmax
  | float value => cases hfloat
  | string value => exact isWritten_string value
  | array hitems ih =>
    rw [hasFloat_array] at hfloat
    exact isWritten_array fun item hitem => ih item hitem (hfloat item hitem)
  | object hkeys hvalues ih =>
    rw [hasFloat_object] at hfloat
    exact isWritten_object hkeys fun entry hentry => ih entry hentry (hfloat entry hentry)

/-! ### The round trip -/

variable {value : Json}

/-- **A printed value stands for itself**, and for nothing else. -/
theorem valueText_indented_iff (h : value.IsProper) (hfloat : value.hasFloat = false)
    {other : Json} : ValueText value.indented.toList other ↔ other = value := by
  have hvalue : ValueText value.indented.toList value := by
    rw [indented, String.toList_ofList]
    exact h.isWritten hfloat 0
  constructor
  · exact hvalue.unique
  · rintro rfl
    exact hvalue

/-- A printed value is read back. -/
theorem ofString?_indented (h : value.IsProper) (hfloat : value.hasFloat = false) :
    ofString? value.indented = some value :=
  ofChars?_of_valueText ((valueText_indented_iff h hfloat).2 rfl)

end ApiShorthand.Json
