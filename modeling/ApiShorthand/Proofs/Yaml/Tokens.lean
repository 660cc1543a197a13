import ApiShorthand.Proofs.Yaml.Scalar

/-!
# The tokens of a printed value

`valueTokens` are the tokens of a value, in which the layout is forgotten but for one thing: a
sequence under a key is neither opened nor closed. A value whose texts have no white space `Scans`
as these tokens at every place where it can be printed. Items and entries are scanned one by one
(`scan_items`, `scan_entries`), so that the induction over values needs one case for each
constructor.
-/

namespace ApiShorthand.Yaml

open Printer

/-! ### Tokens of values -/

/-- The scalar of a text. -/
def textToken (text : List Char) : Token :=
  .scalar text (Style.ofChars text == .plain)

mutual

/-- The tokens of a value. -/
def valueTokens (underKey : Bool) : Json → List Token
  | .null => [.scalar ['n', 'u', 'l', 'l'] true]
  | .bool true => [.scalar ['t', 'r', 'u', 'e'] true]
  | .bool false => [.scalar ['f', 'a', 'l', 's', 'e'] true]
  | .int value => [.scalar (Decimal.intDigits value) true]
  | .float value => [.scalar (Decimal.yamlNotation.write value) true]
  | .string text => [textToken text.toList]
  | .array items =>
    if items.isEmpty then [.openSequence, .closeSequence]
    else if underKey then itemsTokens items
    else .blockSequence :: (itemsTokens items ++ [.blockEnd])
  | .object entries =>
    if entries.isEmpty then [.openMapping, .closeMapping]
    else .blockMapping :: (entriesTokens entries ++ [.blockEnd])

/-- The tokens of the items of a sequence. -/
def itemsTokens : List Json → List Token
  | [] => []
  | item :: items => .item :: (valueTokens false item ++ itemsTokens items)

/-- The tokens of the entries of a mapping. -/
def entriesTokens : List (String × Json) → List Token
  | [] => []
  | (key, value) :: entries =>
    .key :: textToken key.toList :: .value ::
      (valueTokens (isSimpleKey key) value ++ entriesTokens entries)

end

/-! ### Parts of a text -/

namespace Blocks

/-- The scanner reads a part of the text, and needs no more tokens than there are characters. -/
def Reads (b : Blocks) (keyAllowed : Bool) (p : Position) (text rest : List Char) (t : Blocks)
    (keyAllowedBehind : Bool) : Prop :=
  (b.scanner keyAllowed none (spotsAt p (text ++ rest))).LeadsTo text.length
    (t.scanner keyAllowedBehind none (spotsAt (p.after text) rest))

variable {b t u : Blocks} {keyAllowed allowed behind : Bool} {p : Position} {rest : List Char}

theorem reads_nil : b.Reads keyAllowed p [] rest b keyAllowed :=
  .of_run fun _ => rfl

theorem Reads.append {first second : List Char}
    (h : b.Reads keyAllowed p first (second ++ rest) t allowed)
    (hnext : t.Reads allowed (p.after first) second rest u behind) :
    b.Reads keyAllowed p (first ++ second) rest u behind := by
  rw [Reads, List.append_assoc, List.length_append, Position.after_append]
  exact Scanner.LeadsTo.trans h hnext

theorem reads_spaces (column : Nat) :
    b.Reads keyAllowed p (spaces column) rest b keyAllowed :=
  (leadsTo_spaces column rest).mono (Nat.zero_le _)

theorem reads_feed (column : Nat) :
    b.Reads keyAllowed p ('\n' :: spaces column) rest b true := by
  have hfeed : (b.scanner keyAllowed none (spotsAt p ('\n' :: (spaces column ++ rest)))).LeadsTo 0
      (b.scanner true none (spotsAt (p.next '\n') (spaces column ++ rest))) :=
    .of_toToken (toToken_feed p (spaces column ++ rest))
  exact (hfeed.trans (leadsTo_spaces column rest)).mono (Nat.zero_le _)

theorem reads_item (h : b.indent ≤ p.column) :
    b.Reads true p ['-', ' '] rest ((b.enter p.column .blockSequence).add [.item]) true :=
  (leadsTo_item h rest).mono (Nat.le_succ 1)

theorem reads_key (h : b.indent ≤ p.column) :
    b.Reads true p ['?', ' '] rest ((b.enter p.column .blockMapping).add [.key]) true :=
  (leadsTo_key h rest).mono (Nat.le_succ 1)

theorem reads_value (h : b.indent = p.column) :
    b.Reads true p [':', ' '] rest (b.add [.value]) true :=
  (leadsTo_value h rest).mono (Nat.le_succ 1)

/-- A part that is read up to the end of its line. -/
theorem reads_line {text : List Char} {count : Nat} (hcount : count ≤ text.length + 1)
    (h : (b.scanner keyAllowed none (spotsAt p (text ++ '\n' :: rest))).LeadsTo count
      (t.scanner true none (spotsAt (p.after (text ++ ['\n'])) rest))) :
    b.Reads keyAllowed p (text ++ ['\n']) rest t true := by
  rw [Reads, List.append_assoc, List.length_append, List.singleton_append]
  exact h.mono hcount

end Blocks

/-! ### Places -/

namespace Printer.Place

/-- Whether a place is behind the colon of a key. -/
def isUnderKey : Place → Bool
  | inline _ => false
  | underKey _ => true

/-- A place is where the scanner is: deeper than the collection around it, or behind a key of
that. -/
def Fits (b : Blocks) (p : Position) : Place → Prop
  | inline column => p.column = column ∧ b.indent < column
  | underKey column => b.indent = column ∧ column < p.column

variable {place : Place} {b : Blocks} {p : Position}

theorem reads_lead {keyAllowed : Bool} {rest : List Char} (place : Place) :
    b.Reads keyAllowed p place.lead rest b keyAllowed := by
  cases place with
  | inline column => exact Blocks.reads_nil
  | underKey column => exact Blocks.reads_spaces 1

theorem Fits.indent_lt (h : place.Fits b p) : b.indent < (p.after place.lead).column := by
  cases place with
  | inline column =>
    obtain ⟨hcolumn, hindent⟩ := h
    show b.indent < p.column
    omega
  | underKey column =>
    obtain ⟨hindent, hcolumn⟩ := h
    show b.indent < ((p.column + 1 : Nat) : Int)
    omega

theorem reads_opening {rest : List Char} (place : Place) (column : Nat) :
    b.Reads (!place.isUnderKey) p (place.opening column) rest b true := by
  cases place with
  | inline c => exact Blocks.reads_nil
  | underKey c => exact Blocks.reads_feed column

/-- A collection starts at its column. -/
theorem Fits.column_opening (h : place.Fits b p) {column : Nat}
    (hcolumn : ∀ c, place = .inline c → c = column) :
    (p.after (place.opening column)).column = column := by
  cases place with
  | inline c => exact h.1.trans (hcolumn c rfl)
  | underKey c =>
    have hmargin : (p.next '\n').column = 0 := rfl
    exact column_after_spaces hmargin column

end Printer.Place

/-- Wherever a value fits, its text is read as its tokens, and ends a line. -/
def Scans (value : Json) : Prop :=
  ∀ (place : Place) (b : Blocks) (p : Position) (rest : List Char), place.Fits b p →
    GoesOn b.indent rest →
      (p.after (valueChars place value)).column = 0 ∧
        b.Reads (!place.isUnderKey) p (valueChars place value) rest
          (b.add (valueTokens place.isUnderKey value)) true

/-! ### Values on one line -/

theorem column_after_feed (p : Position) (text : List Char) :
    (p.after (text ++ ['\n'])).column = 0 := by
  rw [Position.after_append]
  rfl

/-- A value scans if it is written on one line that is read as its tokens. -/
theorem scans_of_line {value : Json} (text : Place → List Char) (tokens : List Token)
    (hchars : ∀ place, valueChars place value = place.lead ++ (text place ++ ['\n']))
    (htokens : ∀ underKey, valueTokens underKey value = tokens)
    (hread : ∀ (place : Place) (b : Blocks) (keyAllowed : Bool) (p : Position) (rest : List Char),
      b.indent < p.column → GoesOn b.indent rest →
        b.Reads keyAllowed p (text place ++ ['\n']) rest (b.add tokens) true) :
    Scans value := by
  intro place b p rest hfits hrest
  rw [hchars, htokens]
  constructor
  · rw [Position.after_append]
    exact column_after_feed _ _
  · exact (place.reads_lead).append (hread place b _ _ rest hfits.indent_lt hrest)

theorem closed_eq {text : List Char} (h : ∀ c ∈ text, Writable c) :
    closed text = text ++ ['\n'] := by
  have hlast : text.getLast?.any isBreak = false := by
    cases hcase : text.getLast? with
    | none => rfl
    | some c => exact (h c (List.mem_of_getLast? hcase)).2
  rw [closed, hlast, if_neg Bool.false_ne_true]

/-- A text and the end of its line. -/
theorem Blocks.reads_text {text : List Char} (htext : Unbroken text) (column : Nat) {b : Blocks}
    (keyAllowed : Bool) {p : Position} (hcolumn : b.indent < p.column) {rest : List Char}
    (hrest : GoesOn b.indent rest) :
    b.Reads keyAllowed p (textChars column text ++ ['\n']) rest (b.add [textToken text]) true :=
  reads_line (Nat.le_add_left 1 _) (leadsTo_scalar htext column hcolumn hrest)

theorem scans_string {text : String} (h : Unbroken text.toList) : Scans (.string text) := by
  refine scans_of_line (fun place => textChars place.textColumn text.toList)
    [textToken text.toList] (fun place => ?_) (fun _ => by rw [valueTokens]) ?_
  · rw [valueChars, closed_eq (writable_textChars h _)]
  · intro place b keyAllowed p rest hcolumn hrest
    exact Blocks.reads_text h _ keyAllowed hcolumn hrest

/-- A word that stands for a value scans as itself. -/
theorem scans_word {value : Json} {word : List Char} (hword : Unbroken word) (hne : word ≠ [])
    (hallows : Style.allowsPlain word = true)
    (hchars : ∀ place, valueChars place value = place.lead ++ (word ++ ['\n']))
    (htokens : ∀ underKey, valueTokens underKey value = [.scalar word true]) : Scans value := by
  refine scans_of_line (fun _ => word) [.scalar word true] hchars htokens ?_
  intro place b keyAllowed p rest hcolumn hrest
  exact Blocks.reads_line (Nat.le_add_left 1 _)
    (Blocks.leadsTo_word hword hne hallows hcolumn hrest)

theorem scans_null : Scans .null :=
  scans_word (unbroken_of_all (by decide)) (by decide) (by decide) (fun _ => rfl) (fun _ => rfl)

theorem scans_bool (value : Bool) : Scans (.bool value) := by
  cases value with
  | false =>
    exact scans_word (unbroken_of_all (by decide)) (by decide) (by decide) (fun _ => rfl)
      (fun _ => rfl)
  | true =>
    exact scans_word (unbroken_of_all (by decide)) (by decide) (by decide) (fun _ => rfl)
      (fun _ => rfl)

/-- An empty collection scans as its brackets. -/
theorem scans_brackets {value : Json} {first last : Char} {opening closing : Token}
    (h : Blocks.IsBrackets first last opening closing)
    (hchars : ∀ place, valueChars place value = place.lead ++ ([first, last] ++ ['\n']))
    (htokens : ∀ underKey, valueTokens underKey value = [opening, closing]) : Scans value := by
  refine scans_of_line (fun _ => [first, last]) [opening, closing] hchars htokens ?_
  intro place b keyAllowed p rest hcolumn hrest
  have hlines : first ≠ '\n' ∧ last ≠ '\n' := by
    rcases h with ⟨rfl, rfl, -⟩ | ⟨rfl, rfl, -⟩ <;> decide
  have hline : p.line ≤ ((p.next first).next last).line := by
    rw [Position.next_of_ne hlines.2, Position.next_of_ne hlines.1]
  exact Blocks.reads_line (Nat.le_succ 2)
    ((Blocks.leadsTo_brackets h (Int.le_of_lt hcolumn) ('\n' :: rest)).trans
      (Blocks.leadsTo_lineEnd (Int.ne_of_lt hcolumn) hline keyAllowed first hrest))

theorem scans_emptyArray : Scans (.array []) :=
  scans_brackets (.inl ⟨rfl, rfl, rfl, rfl⟩) (fun _ => rfl) (fun _ => rfl)

theorem scans_emptyObject : Scans (.object []) :=
  scans_brackets (.inr ⟨rfl, rfl, rfl, rfl⟩) (fun _ => rfl) (fun _ => rfl)

/-! ### Collections -/

theorem GoesOn.mono {indent deeper : Int} {rest : List Char} (h : GoesOn indent rest)
    (hle : indent ≤ deeper) : GoesOn deeper rest := by
  cases h with
  | nil => exact .nil
  | line column hcolumn hc => exact .line column (Int.le_trans hcolumn hle) hc

/-- A collection that was entered is left again, where the text goes on less deep. -/
theorem Blocks.Reads.leave {b : Blocks} {keyAllowed : Bool} {p : Position} {text rest : List Char}
    {column : Nat} {opening : Token} {tokens : List Token} (hindent : b.indent < column)
    (h : b.Reads keyAllowed p text rest ((b.enter column opening).add tokens) true)
    (hrest : GoesOn b.indent rest) (hend : (p.after text).column = 0) :
    b.Reads keyAllowed p text rest (b.add (opening :: (tokens ++ [.blockEnd]))) true := by
  rw [Blocks.enter_of_lt hindent] at h
  have hclose : (Blocks.scanner ⟨tokens.reverse ++ opening :: b.tokens, column, b.indent :: b.outer⟩
      true none (spotsAt (p.after text) rest)).LeadsTo 0 _ :=
    Blocks.leadsTo_close hindent hrest hend
  have hsame : b.add (opening :: (tokens ++ [.blockEnd])) =
      ⟨.blockEnd :: (tokens.reverse ++ opening :: b.tokens), b.indent, b.outer⟩ := by
    simp [Blocks.add]
  rw [Blocks.Reads, hsame]
  exact Scanner.LeadsTo.trans h hclose

/-! ### Sequences -/

/-- An item, behind which the text goes on at its column or less deep. -/
theorem scan_item {item : Json} (hitem : Scans item) {b : Blocks} {p : Position} {column : Nat}
    (hp : p.column = column) (hindent : b.indent ≤ column) {rest : List Char}
    (h : GoesOn column rest) :
    (p.after (['-', ' '] ++ valueChars (.inline (column + 2)) item)).column = 0 ∧
      b.Reads true p (['-', ' '] ++ valueChars (.inline (column + 2)) item) rest
        ((b.enter column .blockSequence).add (.item :: valueTokens false item)) true := by
  subst hp
  have hdeep : ((b.enter p.column .blockSequence).add [.item]).indent = p.column :=
    Blocks.indent_enter hindent _
  have hfits : (Place.inline (p.column + 2)).Fits ((b.enter p.column .blockSequence).add [.item])
      (p.after ['-', ' ']) := by
    refine ⟨by rw [Position.after_of_not_mem (by decide)]; rfl, ?_⟩
    rw [hdeep]
    omega
  obtain ⟨hend, hscan⟩ := hitem _ _ _ rest hfits (hdeep ▸ h)
  rw [Blocks.add_add] at hscan
  exact ⟨hend, (Blocks.reads_item hindent).append hscan⟩

theorem goesOn_itemsChars (column : Nat) (items : List Json) {rest : List Char}
    (h : GoesOn column rest) : GoesOn column (itemsChars column items ++ rest) := by
  cases items with
  | nil => exact h
  | cons item items =>
    rw [itemsChars, List.append_assoc]
    exact .line column (Int.le_refl _) ⟨by decide, by decide, by decide⟩

/-- The items of an open sequence. -/
theorem scan_items {items : List Json} (hitems : ∀ item ∈ items, Scans item) {b : Blocks}
    {column : Nat} (hindent : b.indent = column) {p : Position} (hp : p.column = 0)
    {rest : List Char} (h : GoesOn column rest) :
    (p.after (itemsChars column items)).column = 0 ∧
      b.Reads true p (itemsChars column items) rest (b.add (itemsTokens items)) true := by
  induction items generalizing b p with
  | nil => exact ⟨hp, Blocks.reads_nil⟩
  | cons item items ih =>
    obtain ⟨hitem, hrest⟩ := List.forall_mem_cons.1 hitems
    obtain ⟨hend, hscan⟩ := scan_item hitem (column_after_spaces hp column) (Int.le_of_eq hindent)
      (goesOn_itemsChars column items h)
    rw [Blocks.enter_of_eq hindent] at hscan
    have hsame : ∀ tokens, (b.add tokens).indent = column := fun _ => hindent
    obtain ⟨hendRest, hscanRest⟩ := ih hrest (hsame _) hend
    rw [Blocks.add_add] at hscanRest
    have hchars : itemsChars column (item :: items) = spaces column ++
        ((['-', ' '] ++ valueChars (.inline (column + 2)) item) ++ itemsChars column items) := by
      rw [itemsChars]
      rfl
    rw [hchars, Position.after_append, Position.after_append, itemsTokens]
    exact ⟨hendRest, (Blocks.reads_spaces column).append (hscan.append hscanRest)⟩

theorem scans_array {items : List Json} (hitems : ∀ item ∈ items, Scans item) :
    Scans (.array items) := by
  cases items with
  | nil => exact scans_emptyArray
  | cons item items =>
    intro place b p rest hfits hrest
    obtain ⟨hitem, hitems⟩ := List.forall_mem_cons.1 hitems
    have hindent : b.indent ≤ place.itemColumn := by
      cases place with
      | inline c => exact Int.le_of_lt hfits.2
      | underKey c => exact Int.le_of_eq hfits.1
    have hp : (p.after (place.opening place.itemColumn)).column = place.itemColumn :=
      hfits.column_opening (by rintro c rfl; rfl)
    have hgoes := hrest.mono hindent
    obtain ⟨hend, hscan⟩ := scan_item hitem hp hindent
      (goesOn_itemsChars place.itemColumn items hgoes)
    have hdeep : ∀ tokens, ((b.enter place.itemColumn .blockSequence).add tokens).indent =
        place.itemColumn := fun _ => Blocks.indent_enter hindent _
    obtain ⟨hendRest, hscanRest⟩ := scan_items hitems (hdeep _) hend hgoes
    rw [Blocks.add_add] at hscanRest
    have hread := (place.reads_opening place.itemColumn).append (hscan.append hscanRest)
    have hchars : valueChars place (.array (item :: items)) = place.opening place.itemColumn ++
        ((['-', ' '] ++ valueChars (.inline (place.itemColumn + 2)) item) ++
          itemsChars place.itemColumn items) := by
      rw [valueChars]
      rfl
    rw [← hchars] at hread
    rw [← Position.after_append, ← Position.after_append, ← hchars] at hendRest
    refine ⟨hendRest, ?_⟩
    cases place with
    | inline c => exact hread.leave hfits.2 hrest hendRest
    | underKey c =>
      have hstays : b.enter (Place.underKey c).itemColumn .blockSequence = b :=
        Blocks.enter_of_eq hfits.1 _
      rw [hstays] at hread
      exact hread

/-! ### Mappings -/

theorem exists_valueChars_underKey (column : Nat) (value : Json) :
    ∃ next rest, valueChars (.underKey column) value = next :: rest ∧
      (next = ' ' ∨ next = '\n') := by
  match value with
  | .null | .bool true | .bool false | .int _ | .float _ | .string _ | .array [] | .object [] =>
    exact ⟨' ', _, rfl, .inl rfl⟩
  | .array (_ :: _) | .object (_ :: _) => exact ⟨'\n', _, rfl, .inr rfl⟩

/-- A key without an indicator. -/
theorem reads_simpleKey {key : String} (hkey : Unbroken key.toList)
    (hsimple : isSimpleKey key = true) {b : Blocks} {p : Position} {column : Nat}
    (hp : p.column = column) (hindent : b.indent ≤ column) {next : Char}
    (hnext : next = ' ' ∨ next = '\n') (rest : List Char) :
    column < (p.after (keyChars column key)).column ∧
      b.Reads true p (keyChars column key) (next :: rest)
        ((b.enter column .blockMapping).add [.key, textToken key.toList, .value]) false := by
  subst hp
  have hchars : keyChars p.column key = textChars (p.column + 2) key.toList ++ [':'] := by
    rw [keyChars, if_pos hsimple]
  have hsize : String.utf8Len key.toList ≤ 128 := by
    rw [isSimpleKey, Bool.and_eq_true, decide_eq_true_eq] at hsimple
    rw [String.utf8Len_toList]
    exact hsimple.2
  have hlength : 2 ≤ (textChars (p.column + 2) key.toList ++ [':']).length := by
    obtain ⟨c, tail, htext, -⟩ := exists_textChars hkey (p.column + 2)
    rw [htext, List.length_append, List.length_cons, List.length_singleton]
    omega
  have hwritable : ∀ c ∈ textChars (p.column + 2) key.toList ++ [':'], Writable c :=
    List.forall_mem_append.2 ⟨writable_textChars hkey _,
      List.forall_mem_singleton.2 ⟨by decide, by decide⟩⟩
  rw [hchars]
  constructor
  · rw [Position.after_of_not_mem (not_mem_feed hwritable)]
    show p.column < p.column + (textChars (p.column + 2) key.toList ++ [':']).length
    omega
  · rw [Blocks.Reads, List.append_assoc]
    exact (Blocks.leadsTo_simpleKey hkey hsize _ hnext hindent rest).mono hlength

/-- A key behind a question mark, and the colon on the next line. -/
theorem reads_longKey {key : String} (hkey : Unbroken key.toList)
    (hlong : ¬ isSimpleKey key = true) {b : Blocks} {p : Position} {column : Nat}
    (hp : p.column = column) (hindent : b.indent ≤ column) (rest : List Char) :
    (p.after (keyChars column key)).column = column + 2 ∧
      b.Reads true p (keyChars column key) rest
        ((b.enter column .blockMapping).add [.key, textToken key.toList, .value]) true := by
  subst hp
  have hchars : keyChars p.column key = ['?', ' '] ++
      ((textChars (p.column + 2) key.toList ++ ['\n']) ++ (spaces p.column ++ [':', ' '])) := by
    rw [keyChars, if_neg hlong, closed_eq (writable_textChars hkey _)]
    simp
  have hdeep : ∀ tokens, ((b.enter p.column .blockMapping).add tokens).indent = p.column :=
    fun tokens => Blocks.indent_enter hindent _
  -- the text of the key, behind which the line of the colon starts
  have hmark : (p.after ['?', ' ']).column = p.column + 2 := by
    rw [Position.after_of_not_mem (by decide)]
    rfl
  have hinside : ((b.enter p.column .blockMapping).add [.key]).indent <
      (p.after ['?', ' ']).column := by
    rw [hdeep, hmark]
    omega
  have hgoes : GoesOn ((b.enter p.column .blockMapping).add [.key]).indent
      ((spaces p.column ++ [':', ' ']) ++ rest) := by
    rw [hdeep, List.append_assoc]
    exact .line p.column (Int.le_refl _) ⟨by decide, by decide, by decide⟩
  have htext := Blocks.reads_text hkey (p.column + 2) true hinside hgoes
  -- the colon, at the column of the question mark
  have hcolon := column_after_spaces
    (column_after_feed (p.after ['?', ' ']) (textChars (p.column + 2) key.toList)) p.column
  have hbehind : (((b.enter p.column .blockMapping).add [.key]).add [textToken key.toList]).indent =
      (((p.after ['?', ' ']).after (textChars (p.column + 2) key.toList ++ ['\n'])).after
        (spaces p.column)).column := by
    rw [hcolon]
    exact hdeep [.key]
  have hread := (Blocks.reads_key hindent).append
    (htext.append ((Blocks.reads_spaces p.column).append (Blocks.reads_value hbehind)))
  rw [Blocks.add_add, Blocks.add_add, ← hchars] at hread
  refine ⟨?_, hread⟩
  rw [hchars, Position.after_append, Position.after_append, Position.after_append,
    Position.after_of_not_mem (by decide), hcolon]
  rfl

/-- An entry, behind which the text goes on at its column or less deep. -/
theorem scan_entry {key : String} {value : Json} (hkey : Unbroken key.toList)
    (hvalue : Scans value) {b : Blocks} {p : Position} {column : Nat} (hp : p.column = column)
    (hindent : b.indent ≤ column) {rest : List Char} (h : GoesOn column rest) :
    (p.after (keyChars column key ++ valueChars (valuePlace column key) value)).column = 0 ∧
      b.Reads true p (keyChars column key ++ valueChars (valuePlace column key) value) rest
        ((b.enter column .blockMapping).add
          (.key :: textToken key.toList :: .value :: valueTokens (isSimpleKey key) value))
        true := by
  have hdeep : ((b.enter column .blockMapping).add
      [.key, textToken key.toList, .value]).indent = column := Blocks.indent_enter hindent _
  rw [Position.after_append]
  by_cases hsimple : isSimpleKey key = true
  · obtain ⟨next, tail, hchars, hnext⟩ := exists_valueChars_underKey column value
    have hplace : valuePlace column key = .underKey column := if_pos hsimple
    obtain ⟨hcolumn, hkeyRead⟩ := reads_simpleKey hkey hsimple hp hindent hnext (tail ++ rest)
    rw [← List.cons_append, ← hchars] at hkeyRead
    have hfits : (Place.underKey column).Fits ((b.enter column .blockMapping).add
        [.key, textToken key.toList, .value]) (p.after (keyChars column key)) :=
      ⟨hdeep, hcolumn⟩
    obtain ⟨hend, hscan⟩ := hvalue _ _ _ rest hfits (hdeep ▸ h)
    rw [Blocks.add_add] at hscan
    rw [hplace, hsimple]
    exact ⟨hend, hkeyRead.append hscan⟩
  · have hplace : valuePlace column key = .inline (column + 2) := if_neg hsimple
    obtain ⟨hcolumn, hkeyRead⟩ := reads_longKey hkey hsimple hp hindent
      (valueChars (.inline (column + 2)) value ++ rest)
    have hfits : (Place.inline (column + 2)).Fits ((b.enter column .blockMapping).add
        [.key, textToken key.toList, .value]) (p.after (keyChars column key)) := by
      refine ⟨hcolumn, ?_⟩
      rw [hdeep]
      omega
    obtain ⟨hend, hscan⟩ := hvalue _ _ _ rest hfits (hdeep ▸ h)
    rw [Blocks.add_add] at hscan
    rw [hplace, Bool.eq_false_iff.2 hsimple]
    exact ⟨hend, hkeyRead.append hscan⟩

theorem goesOn_entriesChars (column : Nat) {entries : List (String × Json)}
    (hkeys : ∀ entry ∈ entries, Unbroken entry.1.toList) {rest : List Char}
    (h : GoesOn column rest) : GoesOn column (entriesChars column entries ++ rest) := by
  cases entries with
  | nil => exact h
  | cons entry entries =>
    obtain ⟨c, tail, hchars, hc⟩ : ∃ c tail,
        keyChars column entry.1 = c :: tail ∧ StartsToken c := by
      rw [keyChars]
      split
      · obtain ⟨c, tail, htext, hc⟩ := exists_textChars
          (hkeys entry List.mem_cons_self) (column + 2)
        exact ⟨c, tail ++ [':'], by rw [htext, List.cons_append], hc⟩
      · exact ⟨'?', _, rfl, by decide, by decide, by decide⟩
    rw [entriesChars, hchars, List.append_assoc, List.append_assoc]
    exact .line column (Int.le_refl _) hc

/-- The entries of an open mapping. -/
theorem scan_entries {entries : List (String × Json)}
    (hkeys : ∀ entry ∈ entries, Unbroken entry.1.toList)
    (hvalues : ∀ entry ∈ entries, Scans entry.2) {b : Blocks} {column : Nat}
    (hindent : b.indent = column) {p : Position} (hp : p.column = 0) {rest : List Char}
    (h : GoesOn column rest) :
    (p.after (entriesChars column entries)).column = 0 ∧
      b.Reads true p (entriesChars column entries) rest (b.add (entriesTokens entries)) true := by
  induction entries generalizing b p with
  | nil => exact ⟨hp, Blocks.reads_nil⟩
  | cons entry entries ih =>
    obtain ⟨key, value⟩ := entry
    obtain ⟨hkey, hkeysRest⟩ := List.forall_mem_cons.1 hkeys
    obtain ⟨hvalue, hvaluesRest⟩ := List.forall_mem_cons.1 hvalues
    obtain ⟨hend, hscan⟩ := scan_entry hkey hvalue (column_after_spaces hp column)
      (Int.le_of_eq hindent) (goesOn_entriesChars column hkeysRest h)
    rw [Blocks.enter_of_eq hindent] at hscan
    have hsame : ∀ tokens, (b.add tokens).indent = column := fun _ => hindent
    obtain ⟨hendRest, hscanRest⟩ := ih hkeysRest hvaluesRest (hsame _) hend
    rw [Blocks.add_add] at hscanRest
    have hchars : entriesChars column ((key, value) :: entries) = spaces column ++
        ((keyChars column key ++ valueChars (valuePlace column key) value) ++
          entriesChars column entries) := by
      rw [entriesChars, List.append_assoc, List.append_assoc]
    rw [hchars, Position.after_append, Position.after_append, entriesTokens]
    exact ⟨hendRest, (Blocks.reads_spaces column).append (hscan.append hscanRest)⟩

theorem scans_object {entries : List (String × Json)}
    (hkeys : ∀ entry ∈ entries, Unbroken entry.1.toList)
    (hvalues : ∀ entry ∈ entries, Scans entry.2) : Scans (.object entries) := by
  cases entries with
  | nil => exact scans_emptyObject
  | cons entry entries =>
    obtain ⟨key, value⟩ := entry
    intro place b p rest hfits hrest
    obtain ⟨hkey, hkeysRest⟩ := List.forall_mem_cons.1 hkeys
    obtain ⟨hvalue, hvaluesRest⟩ := List.forall_mem_cons.1 hvalues
    have hindent : b.indent < place.keyColumn := by
      cases place with
      | inline c => exact hfits.2
      | underKey c =>
        have hequal : b.indent = c := hfits.1
        show b.indent < ((c + 2 : Nat) : Int)
        omega
    have hp : (p.after (place.opening place.keyColumn)).column = place.keyColumn :=
      hfits.column_opening (by rintro c rfl; rfl)
    have hgoes := hrest.mono (Int.le_of_lt hindent)
    obtain ⟨hend, hscan⟩ := scan_entry hkey hvalue hp (Int.le_of_lt hindent)
      (goesOn_entriesChars place.keyColumn hkeysRest hgoes)
    have hdeep : ∀ tokens, ((b.enter place.keyColumn .blockMapping).add tokens).indent =
        place.keyColumn := fun _ => Blocks.indent_enter (Int.le_of_lt hindent) _
    obtain ⟨hendRest, hscanRest⟩ := scan_entries hkeysRest hvaluesRest (hdeep _) hend hgoes
    rw [Blocks.add_add] at hscanRest
    have hread := (place.reads_opening place.keyColumn).append (hscan.append hscanRest)
    have hchars : valueChars place (.object ((key, value) :: entries)) =
        place.opening place.keyColumn ++
          ((keyChars place.keyColumn key ++ valueChars (valuePlace place.keyColumn key) value) ++
            entriesChars place.keyColumn entries) := by
      rw [valueChars, List.append_assoc, List.append_assoc]
    rw [← hchars] at hread
    rw [← Position.after_append, ← Position.after_append, ← hchars] at hendRest
    exact ⟨hendRest, hread.leave hindent hrest hendRest⟩

end ApiShorthand.Yaml
