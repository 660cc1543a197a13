import ApiShorthand.Proofs.Json.Escape
import ApiShorthand.Proofs.Json.Number

/-!
# JSON texts are read

Whatever a text stands for by the grammar of JSON, it is read as (`ofChars?_of_valueText`), however
deeply it nests: the length of the text is fuel enough. So a text stands for one value at most
(`ValueText.unique`). What the reader does with a text is said once for each of its functions, and
the theorem is an induction on the grammar.
-/

namespace ApiShorthand.Json

variable {fuel : Nat} {text rest rest' rest'' : List Char}

/-! ### White space -/

theorem isSpace_iff {c : Char} :
    isSpace c = true ↔ c = ' ' ∨ c = '\t' ∨ c = '\n' ∨ c = '\r' := by
  simp only [isSpace, Bool.or_eq_true, beq_iff_eq]
  tauto

theorem skipSpace_append {gap : List Char} (h : IsGap gap) (text : List Char) :
    skipSpace (gap ++ text) = skipSpace text :=
  List.dropWhile_append_of_pos fun c hc => isSpace_iff.2 (h c hc)

theorem skipSpace_cons {c : Char} (h : isSpace c = false) (text : List Char) :
    skipSpace (c :: text) = c :: text :=
  List.dropWhile_cons_of_neg (by rw [h]; decide)

theorem skipSpace_skipSpace (text : List Char) : skipSpace (skipSpace text) = skipSpace text :=
  List.dropWhile_idempotent _ _

theorem readValue?_skipSpace (fuel : Nat) (text : List Char) :
    readValue? fuel (skipSpace text) = readValue? fuel text := by
  cases fuel with
  | zero => rfl
  | succ fuel => rw [readValue?, readValue?, skipSpace_skipSpace]

theorem readItems?_skipSpace (fuel : Nat) (text : List Char) :
    readItems? fuel (skipSpace text) = readItems? fuel text := by
  cases fuel with
  | zero => rfl
  | succ fuel => rw [readItems?, readItems?, readValue?_skipSpace]

theorem readEntries?_skipSpace (fuel : Nat) (text : List Char) :
    readEntries? fuel (skipSpace text) = readEntries? fuel text := by
  cases fuel with
  | zero => rfl
  | succ fuel => rw [readEntries?, readEntries?, skipSpace_skipSpace]

theorem readValue?_append {gap : List Char} (h : IsGap gap) (fuel : Nat) (text : List Char) :
    readValue? fuel (gap ++ text) = readValue? fuel text := by
  rw [← readValue?_skipSpace, skipSpace_append h, readValue?_skipSpace]

/-- White space ends a number, and what ends one behind white space does so, too. -/
theorem endsNumber_append {gap : List Char} (hgap : IsGap gap) (h : EndsNumber text) :
    EndsNumber (gap ++ text) := by
  cases gap with
  | nil => exact h
  | cons c gap =>
    refine endsNumber_cons ?_ _
    rcases hgap c List.mem_cons_self with rfl | rfl | rfl | rfl
    all_goals decide

/-! ### What the reader does -/

/-- No value starts with a closing bracket. -/
theorem readItems?_of_bracket (h : skipSpace text = ']' :: rest) : readItems? fuel text = none := by
  rw [← readItems?_skipSpace, h]
  cases fuel with
  | zero => rfl
  | succ fuel =>
    cases fuel with
    | zero => rfl
    | succ fuel => rfl

/-- No key starts with a closing brace. -/
theorem readEntries?_of_brace (h : skipSpace text = '}' :: rest) :
    readEntries? fuel text = none := by
  rw [← readEntries?_skipSpace, h]
  cases fuel with
  | zero => rfl
  | succ fuel => rfl

/-- A number is read where a digit or a minus sign stands. -/
theorem readValue?_numeral {numeral : Numeral} {value : Json} (h : NumeralText text numeral)
    (hvalue : numeral.value? = some value) (hrest : EndsNumber rest) :
    readValue? (fuel + 1) (text ++ rest) = some (value, rest) := by
  have htake := Numeral.take?_append h hrest
  obtain ⟨c, tail, rfl, hc⟩ := h.exists_eq_cons
  have hne : ∀ d, Text.isDigit d = false → d ≠ '-' → c ≠ d := by
    rintro d hdigit hminus rfl
    rcases hc with hc | hc
    · rw [hdigit] at hc
      cases hc
    · exact hminus hc
  have hspace : isSpace c = false := by
    simp only [isSpace, Bool.or_eq_false_iff, beq_eq_false_iff_ne]
    exact ⟨⟨⟨hne _ (by decide) (by decide), hne _ (by decide) (by decide)⟩,
      hne _ (by decide) (by decide)⟩, hne _ (by decide) (by decide)⟩
  rw [List.cons_append, readValue?, skipSpace_cons hspace]
  -- no other kind of value starts in this way
  split
  case h_7 =>
    rw [← List.cons_append, htake, Option.bind_eq_bind, Option.bind_some]
    dsimp only
    rw [hvalue]
    rfl
  all_goals
    rename_i heq
    exact absurd (List.head_eq_of_cons_eq heq) (hne _ (by decide) (by decide))

theorem readValue?_string {characters : List Char}
    (h : readStringTail? text = some (characters, rest)) :
    readValue? (fuel + 1) ('"' :: text) = some (string (String.ofList characters), rest) := by
  rw [readValue?, skipSpace_cons (by decide)]
  show (readStringTail? text >>= _) = _
  rw [h]
  rfl

/-- What is read behind an opening bracket. -/
theorem readValue?_bracket (fuel : Nat) (text : List Char) :
    (∀ rest, skipSpace text = ']' :: rest →
      readValue? (fuel + 1) ('[' :: text) = some (array [], rest)) ∧
    ∀ items rest, readItems? fuel text = some (items, rest) →
      readValue? (fuel + 1) ('[' :: text) = some (array items, rest) := by
  rw [readValue?, skipSpace_cons (by decide)]
  -- of the kinds of values, only an array starts in this way
  split
  case h_5 _ tail heq =>
    obtain rfl : text = tail := List.tail_eq_of_cons_eq heq
    constructor
    · intro rest h
      rw [h]
      rfl
    · intro items rest h
      split
      · rename_i hbracket
        rw [readItems?_of_bracket hbracket] at h
        cases h
      · rw [readItems?_skipSpace, h]
        rfl
  case h_7 hopen _ => exact (hopen text rfl).elim
  all_goals
    rename_i heq
    exact absurd (List.head_eq_of_cons_eq heq) (by decide)

/-- What is read behind an opening brace. -/
theorem readValue?_brace (fuel : Nat) (text : List Char) :
    (∀ rest, skipSpace text = '}' :: rest →
      readValue? (fuel + 1) ('{' :: text) = some (object [], rest)) ∧
    ∀ entries rest, readEntries? fuel text = some (entries, rest) →
      readValue? (fuel + 1) ('{' :: text) = some (object (Table.ofList entries), rest) := by
  rw [readValue?, skipSpace_cons (by decide)]
  -- of the kinds of values, only an object starts in this way
  split
  case h_6 _ tail heq =>
    obtain rfl : text = tail := List.tail_eq_of_cons_eq heq
    constructor
    · intro rest h
      rw [h]
      rfl
    · intro entries rest h
      split
      · rename_i hbrace
        rw [readEntries?_of_brace hbrace] at h
        cases h
      · rw [readEntries?_skipSpace, h]
        rfl
  case h_7 hopen => exact (hopen text rfl).elim
  all_goals
    rename_i heq
    exact absurd (List.head_eq_of_cons_eq heq) (by decide)

theorem readItems?_singleton {item : Json} (h : readValue? fuel text = some (item, rest))
    (hrest : skipSpace rest = ']' :: rest') :
    readItems? (fuel + 1) text = some ([item], rest') := by
  rw [readItems?, h, Option.bind_eq_bind, Option.bind_some]
  dsimp only
  rw [hrest]
  rfl

theorem readItems?_cons {item : Json} {items : List Json}
    (h : readValue? fuel text = some (item, rest)) (hrest : skipSpace rest = ',' :: rest')
    (hitems : readItems? fuel rest' = some (items, rest'')) :
    readItems? (fuel + 1) text = some (item :: items, rest'') := by
  rw [readItems?, h, Option.bind_eq_bind, Option.bind_some]
  dsimp only
  rw [hrest]
  show (readItems? fuel rest' >>= _) = _
  rw [hitems]
  rfl

/-- Behind a key and its colon, a value is read and what follows it. -/
theorem readEntries?_keyText {keyText : List Char} {key : String} (h : KeyText keyText key)
    (fuel : Nat) (text : List Char) :
    readEntries? (fuel + 1) (keyText ++ text) = (do
      let (value, rest) ← readValue? fuel text
      match skipSpace rest with
      | '}' :: rest => some ([(key, value)], rest)
      | ',' :: rest =>
        let (entries, rest) ← readEntries? fuel rest
        some ((key, value) :: entries, rest)
      | _ => none) := by
  cases h with
  | @mk before tail after characters hbefore htail hafter =>
    have hquote : skipSpace (before ++ '"' :: (tail ++ (after ++ [':'])) ++ text) =
        '"' :: (tail ++ (after ++ ':' :: text)) := by
      simp only [List.append_assoc, List.cons_append, List.nil_append]
      rw [skipSpace_append hbefore, skipSpace_cons (by decide)]
    have hcolon : skipSpace (after ++ ':' :: text) = ':' :: text := by
      rw [skipSpace_append hafter, skipSpace_cons (by decide)]
    rw [readEntries?, hquote]
    show (readStringTail? (tail ++ (after ++ ':' :: text)) >>= _) = _
    rw [readStringTail?_append htail, Option.bind_eq_bind, Option.bind_some]
    dsimp only
    rw [hcolon]
    rfl

theorem readEntries?_singleton {keyText : List Char} {key : String} {value : Json}
    (hkey : KeyText keyText key) (h : readValue? fuel text = some (value, rest))
    (hrest : skipSpace rest = '}' :: rest') :
    readEntries? (fuel + 1) (keyText ++ text) = some ([(key, value)], rest') := by
  rw [readEntries?_keyText hkey, h, Option.bind_eq_bind, Option.bind_some]
  dsimp only
  rw [hrest]
  rfl

theorem readEntries?_cons {keyText : List Char} {key : String} {value : Json}
    {entries : List (String × Json)} (hkey : KeyText keyText key)
    (h : readValue? fuel text = some (value, rest)) (hrest : skipSpace rest = ',' :: rest')
    (hentries : readEntries? fuel rest' = some (entries, rest'')) :
    readEntries? (fuel + 1) (keyText ++ text) = some ((key, value) :: entries, rest'') := by
  rw [readEntries?_keyText hkey, h, Option.bind_eq_bind, Option.bind_some]
  dsimp only
  rw [hrest]
  show (readEntries? fuel rest' >>= _) = _
  rw [hentries]
  rfl

/-! ### All texts are read -/

/-- A text is read as a value, whatever stands behind it that does not go on with a number; white
space behind the value may be left. -/
def Reads (text : List Char) (value : Json) : Prop :=
  ∀ fuel rest, text.length ≤ fuel → EndsNumber rest →
    ∃ rest', readValue? fuel (text ++ rest) = some (value, rest') ∧
      skipSpace rest' = skipSpace rest

/-- A text that is read to its end, of which one character at least was needed. -/
theorem reads_of_readValue? {value : Json} (hne : text ≠ [])
    (h : ∀ fuel rest, text.length ≤ fuel + 1 → EndsNumber rest →
      readValue? (fuel + 1) (text ++ rest) = some (value, rest)) : Reads text value := by
  intro fuel rest hfuel hrest
  obtain ⟨fuel, rfl⟩ : ∃ k, fuel = k + 1 :=
    Nat.exists_eq_add_one.2 (Nat.lt_of_lt_of_le (List.length_pos_of_ne_nil hne) hfuel)
  exact ⟨rest, h fuel rest hfuel hrest, rfl⟩

theorem Reads.padded {before after : List Char} {value : Json} (h : Reads text value)
    (hbefore : IsGap before) (hafter : IsGap after) : Reads (before ++ (text ++ after)) value := by
  intro fuel rest hfuel hrest
  rw [List.length_append, List.length_append] at hfuel
  obtain ⟨rest', hread, hskip⟩ :=
    h fuel (after ++ rest) (by omega) (endsNumber_append hafter hrest)
  refine ⟨rest', ?_, hskip.trans (skipSpace_append hafter rest)⟩
  rw [List.append_assoc, List.append_assoc, readValue?_append hbefore, hread]

/-- What is behind a value of an array or an object is left as it is, if it is no white space. -/
theorem Reads.exists_of_cons {c : Char} {value : Json} (h : Reads text value)
    (hc : Text.isDigit c = false ∧ c ≠ '.' ∧ c ≠ 'e' ∧ c ≠ 'E') (hspace : isSpace c = false)
    (hfuel : text.length ≤ fuel) (rest : List Char) :
    ∃ rest', readValue? fuel (text ++ c :: rest) = some (value, rest') ∧
      skipSpace rest' = c :: rest := by
  obtain ⟨rest', hread, hskip⟩ := h fuel (c :: rest) hfuel (endsNumber_cons hc rest)
  exact ⟨rest', hread, hskip.trans (skipSpace_cons hspace rest)⟩

-- The recursion follows the grammar. Each bracket, brace and comma that is passed leaves the text
-- shorter by one, as each call leaves less fuel by one.
mutual

/-- **A text is read as what it stands for.** -/
theorem reads_of_valueText {text : List Char} {value : Json} : ValueText text value →
    Reads text value
  | .null => reads_of_readValue? (List.cons_ne_nil _ _) fun _ _ _ _ => rfl
  | .true => reads_of_readValue? (List.cons_ne_nil _ _) fun _ _ _ _ => rfl
  | .false => reads_of_readValue? (List.cons_ne_nil _ _) fun _ _ _ _ => rfl
  | .number hnumeral hvalue => by
    obtain ⟨c, tail, htext, -⟩ := hnumeral.exists_eq_cons
    refine reads_of_readValue? (htext ▸ List.cons_ne_nil c tail) fun fuel rest _ hrest => ?_
    exact readValue?_numeral hnumeral hvalue hrest
  | .string htail => reads_of_readValue? (List.cons_ne_nil _ _) fun fuel rest _ _ =>
    readValue?_string (readStringTail?_append htail rest)
  | @ValueText.emptyArray gap hgap => by
    refine reads_of_readValue? (List.cons_ne_nil _ _) fun fuel rest _ _ => ?_
    refine (readValue?_bracket fuel (gap ++ [']'] ++ rest)).1 rest ?_
    rw [List.append_assoc, skipSpace_append hgap]
    rfl
  | @ValueText.array text items hitems => by
    refine reads_of_readValue? (List.cons_ne_nil _ _) fun fuel rest hfuel _ => ?_
    refine (readValue?_bracket fuel (text ++ rest)).2 items rest ?_
    exact readItems?_of_itemsText hitems fuel rest (Nat.le_of_succ_le_succ hfuel)
  | @ValueText.emptyObject gap hgap => by
    refine reads_of_readValue? (List.cons_ne_nil _ _) fun fuel rest _ _ => ?_
    refine (readValue?_brace fuel (gap ++ ['}'] ++ rest)).1 rest ?_
    rw [List.append_assoc, skipSpace_append hgap]
    rfl
  | @ValueText.object text entries hentries => by
    refine reads_of_readValue? (List.cons_ne_nil _ _) fun fuel rest hfuel _ => ?_
    refine (readValue?_brace fuel (text ++ rest)).2 entries rest ?_
    exact readEntries?_of_entriesText hentries fuel rest (Nat.le_of_succ_le_succ hfuel)
  | .padded hbefore hvalue hafter => (reads_of_valueText hvalue).padded hbefore hafter

/-- Items are read up to their closing bracket. -/
theorem readItems?_of_itemsText {text : List Char} {items : List Json} : ItemsText text items →
    ∀ fuel rest, text.length ≤ fuel → readItems? fuel (text ++ rest) = some (items, rest)
  | @ItemsText.last text item hitem, fuel, rest, hfuel => by
    rw [List.length_append, List.length_singleton] at hfuel
    obtain ⟨fuel, rfl⟩ : ∃ k, fuel = k + 1 := Nat.exists_eq_add_one.2 (by omega)
    have hlength : text.length ≤ fuel := by omega
    obtain ⟨rest', hread, hrest⟩ :=
      (reads_of_valueText hitem).exists_of_cons (c := ']') (by decide) (by decide) hlength rest
    rw [List.append_assoc]
    exact readItems?_singleton hread hrest
  | @ItemsText.cons text tail item items hitem hitems, fuel, rest, hfuel => by
    rw [List.length_append, List.length_cons] at hfuel
    obtain ⟨fuel, rfl⟩ : ∃ k, fuel = k + 1 := Nat.exists_eq_add_one.2 (by omega)
    have hlength : text.length ≤ fuel := by omega
    obtain ⟨rest', hread, hrest⟩ := (reads_of_valueText hitem).exists_of_cons (c := ',')
      (by decide) (by decide) hlength (tail ++ rest)
    rw [List.append_assoc]
    exact readItems?_cons hread hrest (readItems?_of_itemsText hitems fuel rest (by omega))

/-- Entries are read up to their closing brace. -/
theorem readEntries?_of_entriesText {text : List Char} {entries : List (String × Json)} :
    EntriesText text entries →
    ∀ fuel rest, text.length ≤ fuel → readEntries? fuel (text ++ rest) = some (entries, rest)
  | @EntriesText.last keyText text key value hkey hvalue, fuel, rest, hfuel => by
    rw [List.length_append, List.length_append, List.length_singleton] at hfuel
    obtain ⟨fuel, rfl⟩ : ∃ k, fuel = k + 1 := Nat.exists_eq_add_one.2 (by omega)
    have hlength : text.length ≤ fuel := by omega
    obtain ⟨rest', hread, hrest⟩ :=
      (reads_of_valueText hvalue).exists_of_cons (c := '}') (by decide) (by decide) hlength rest
    rw [List.append_assoc, List.append_assoc]
    exact readEntries?_singleton hkey hread hrest
  | @EntriesText.cons keyText text tail key value entries hkey hvalue hentries, fuel, rest,
      hfuel => by
    rw [List.length_append, List.length_append, List.length_cons] at hfuel
    obtain ⟨fuel, rfl⟩ : ∃ k, fuel = k + 1 := Nat.exists_eq_add_one.2 (by omega)
    have hlength : text.length ≤ fuel := by omega
    obtain ⟨rest', hread, hrest⟩ := (reads_of_valueText hvalue).exists_of_cons (c := ',')
      (by decide) (by decide) hlength (tail ++ rest)
    rw [List.append_assoc, List.append_assoc]
    exact readEntries?_cons hkey hread hrest
      (readEntries?_of_entriesText hentries fuel rest (by omega))

end

/-- **Every JSON text is read**, as the value that it stands for. -/
theorem ofChars?_of_valueText {value : Json} (h : ValueText text value) :
    ofChars? text = some value := by
  obtain ⟨rest, hread, hrest⟩ :=
    reads_of_valueText h (2 * text.length + 1) [] (by omega) endsNumber_nil
  rw [List.append_nil] at hread
  rw [ofChars?, hread, Option.bind_eq_bind, Option.bind_some]
  dsimp only
  rw [hrest]
  rfl

/-- A text stands for one value at most. -/
theorem ValueText.unique {value other : Json} (h : ValueText text value)
    (hother : ValueText text other) : other = value := by
  have hread := ofChars?_of_valueText hother
  rw [ofChars?_of_valueText h] at hread
  exact (Option.some.inj hread).symm

end ApiShorthand.Json
