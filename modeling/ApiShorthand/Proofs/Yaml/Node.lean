import ApiShorthand.Proofs.Yaml.Tokens
import ApiShorthand.Proofs.Table
import ApiShorthand.Yaml.Reader

/-!
# From the tokens of a value to the value

The tokens of a value are read as its node (`IsRead`), with no more fuel than two units for a token
and one item or entry at a time; and the node stands for the value (`value_array`, `value_object`),
where the keys of every mapping are distinct and collections are not nested too deeply.
-/

namespace ApiShorthand.Yaml.Node

open Printer (isSimpleKey)

/-! ### Nodes of values -/

/-- The node of a text. -/
def ofText (text : List Char) : Node :=
  .scalar noProperties text (Style.ofChars text == .plain)

mutual

/-- The node of a value. -/
def ofJson : Json → Node
  | .null => .scalar noProperties ['n', 'u', 'l', 'l'] true
  | .bool true => .scalar noProperties ['t', 'r', 'u', 'e'] true
  | .bool false => .scalar noProperties ['f', 'a', 'l', 's', 'e'] true
  | .int value => .scalar noProperties (Decimal.intDigits value) true
  | .float value => .scalar noProperties (Decimal.yamlNotation.write value) true
  | .string text => ofText text.toList
  | .array items => .sequence noProperties (itemNodes items)
  | .object entries => .mapping noProperties (entryNodes entries)

/-- The nodes of items. -/
def itemNodes : List Json → List Node
  | [] => []
  | item :: items => ofJson item :: itemNodes items

/-- The nodes of entries. -/
def entryNodes : List (String × Json) → List (Node × Node)
  | [] => []
  | (key, value) :: entries => (ofText key.toList, ofJson value) :: entryNodes entries

end

/-! ### Reading single nodes -/

section

variable {handles : Handles} {fuel : Nat} {place : Place} {rest : List Token}
  {anchors : List (List Char × Nat)}

theorem read_scalar (text : List Char) (plain : Bool) :
    read handles (fuel + 1) place ⟨.scalar text plain :: rest, anchors⟩ =
      .ok (.scalar noProperties text plain, ⟨rest, anchors⟩) := by
  rw [read]
  cases place <;> rfl

theorem read_emptySequence :
    read handles (fuel + 2) place ⟨.openSequence :: .closeSequence :: rest, anchors⟩ =
      .ok (.sequence noProperties [], ⟨rest, anchors⟩) := by
  rw [read]
  cases place <;> rfl

theorem read_emptyMapping :
    read handles (fuel + 2) place ⟨.openMapping :: .closeMapping :: rest, anchors⟩ =
      .ok (.mapping noProperties [], ⟨rest, anchors⟩) := by
  rw [read]
  cases place <;> rfl

theorem read_blockSequence (hplace : place ≠ .flow) {tokens : List Token} {items : List Node}
    (h : readBlockItems handles fuel ⟨tokens, anchors⟩ = .ok (items, ⟨rest, anchors⟩)) :
    read handles (fuel + 1) place ⟨.blockSequence :: tokens, anchors⟩ =
      .ok (.sequence noProperties items, ⟨rest, anchors⟩) := by
  have hread : readBlockItems handles fuel ⟨tokens, anchors⟩ >>=
      (fun result => pure (sequence noProperties result.1, result.2)) =
        .ok (.sequence noProperties items, ⟨rest, anchors⟩) := by
    rw [h]
    rfl
  rw [read]
  cases place with
  | flow => exact absurd rfl hplace
  | block => exact hread
  | blockEntry => exact hread

theorem read_blockMapping (hplace : place ≠ .flow) {tokens : List Token}
    {entries : List (Node × Node)}
    (h : readBlockEntries handles fuel ⟨tokens, anchors⟩ = .ok (entries, ⟨rest, anchors⟩)) :
    read handles (fuel + 1) place ⟨.blockMapping :: tokens, anchors⟩ =
      .ok (.mapping noProperties entries, ⟨rest, anchors⟩) := by
  have hread : readBlockEntries handles fuel ⟨tokens, anchors⟩ >>=
      (fun result => pure (mapping noProperties result.1, result.2)) =
        .ok (.mapping noProperties entries, ⟨rest, anchors⟩) := by
    rw [h]
    rfl
  rw [read]
  cases place with
  | flow => exact absurd rfl hplace
  | block => exact hread
  | blockEntry => exact hread

theorem read_dashes {tokens : List Token} {items : List Node}
    (h : readDashItems handles fuel ⟨.item :: tokens, anchors⟩ = .ok (items, ⟨rest, anchors⟩)) :
    read handles (fuel + 1) .blockEntry ⟨.item :: tokens, anchors⟩ =
      .ok (.sequence noProperties items, ⟨rest, anchors⟩) := by
  rw [read]
  show readDashItems handles fuel ⟨.item :: tokens, anchors⟩ >>= _ = _
  rw [h]
  rfl

end

/-! ### Reading values -/

/-- Whether a token starts a value. -/
def startsValue (underKey : Bool) : Token → Bool
  | .scalar _ _ | .openSequence | .openMapping | .blockSequence | .blockMapping => true
  | .item => underKey
  | _ => false

theorem exists_valueTokens (underKey : Bool) (value : Json) :
    ∃ token rest, valueTokens underKey value = token :: rest ∧
      startsValue underKey token = true := by
  match value with
  | .null | .bool true | .bool false | .int _ | .float _ | .string _ | .array [] | .object [] =>
    exact ⟨_, _, rfl, rfl⟩
  | .array (_ :: _) => cases underKey <;> exact ⟨_, _, rfl, rfl⟩
  | .object (_ :: _) => exact ⟨_, _, rfl, rfl⟩

/-- Where a value follows, its node is not missing. -/
theorem readOrEmpty_value {handles : Handles} {fuel : Nat} {place : Place}
    {shown : Token → Bool} {underKey : Bool} {value : Json} {rest : List Token}
    {anchors : List (List Char × Nat)}
    (hshown : ∀ token, startsValue underKey token = true → shown token = false) :
    readOrEmpty handles (fuel + 1) place shown ⟨valueTokens underKey value ++ rest, anchors⟩ =
      read handles fuel place ⟨valueTokens underKey value ++ rest, anchors⟩ := by
  obtain ⟨token, tail, htokens, hstarts⟩ := exists_valueTokens underKey value
  have hpresent : isMissing shown (valueTokens underKey value ++ rest) = false := by
    rw [htokens]
    exact hshown token hstarts
  rw [readOrEmpty, hpresent, if_neg Bool.false_ne_true]

/-- Wherever a value can stand in a block, its tokens are read as its node. -/
def IsRead (value : Json) : Prop :=
  ∀ (handles : Handles) (underKey : Bool) (place : Place) (fuel : Nat) (rest : List Token)
    (anchors : List (List Char × Nat)),
    place ≠ .flow → (underKey = true → place = .blockEntry ∧ rest.head? ≠ some .item) →
      2 * (valueTokens underKey value).length + 2 * underKey.toNat ≤ fuel →
        read handles fuel place ⟨valueTokens underKey value ++ rest, anchors⟩ =
          .ok (ofJson value, ⟨rest, anchors⟩)

theorem isRead_scalar {value : Json} {text : List Char} {plain : Bool}
    (htokens : ∀ underKey, valueTokens underKey value = [.scalar text plain])
    (hnode : ofJson value = .scalar noProperties text plain) : IsRead value := by
  intro handles underKey place fuel rest anchors _ _ hfuel
  rw [htokens, List.length_singleton] at hfuel
  obtain ⟨left, rfl⟩ : ∃ left, fuel = left + 1 := ⟨fuel - 1, by omega⟩
  rw [htokens, hnode]
  exact read_scalar text plain

/-- The items of a block sequence. -/
theorem readBlockItems_items {items : List Json} (hitems : ∀ item ∈ items, IsRead item)
    {handles : Handles} {fuel : Nat} (rest : List Token) {anchors : List (List Char × Nat)}
    (hfuel : 2 * (itemsTokens items).length + 1 ≤ fuel) :
    readBlockItems handles fuel ⟨itemsTokens items ++ .blockEnd :: rest, anchors⟩ =
      .ok (itemNodes items, ⟨rest, anchors⟩) := by
  induction items generalizing fuel with
  | nil =>
    obtain ⟨left, rfl⟩ : ∃ left, fuel = left + 1 := ⟨fuel - 1, by omega⟩
    rfl
  | cons item items ih =>
    obtain ⟨hitem, hrest⟩ := List.forall_mem_cons.1 hitems
    rw [itemsTokens, List.length_cons, List.length_append] at hfuel
    obtain ⟨left, rfl⟩ : ∃ left, fuel = left + 2 := ⟨fuel - 2, by omega⟩
    have hvalue : readOrEmpty handles (left + 1) .block endsBlockItem
        ⟨valueTokens false item ++ (itemsTokens items ++ .blockEnd :: rest), anchors⟩ =
          .ok (ofJson item, ⟨itemsTokens items ++ .blockEnd :: rest, anchors⟩) := by
      rw [readOrEmpty_value]
      · exact hitem handles false .block left _ anchors (by decide)
          (fun h => absurd h Bool.false_ne_true) (by rw [Bool.toNat_false]; omega)
      · rintro token hstarts
        cases token <;> first | rfl | cases hstarts
    have hlater : readBlockItems handles (left + 1)
        ⟨itemsTokens items ++ .blockEnd :: rest, anchors⟩ =
          .ok (itemNodes items, ⟨rest, anchors⟩) :=
      ih hrest (by omega)
    rw [itemsTokens, List.cons_append, List.append_assoc]
    show readOrEmpty handles (left + 1) .block endsBlockItem ⟨_, anchors⟩ >>= _ = _
    rw [hvalue]
    show readBlockItems handles (left + 1) ⟨_, anchors⟩ >>= _ = _
    rw [hlater]
    rfl

/-- The items of a sequence at the column of the keys around it. -/
theorem readDashItems_items {items : List Json} (hitems : ∀ item ∈ items, IsRead item)
    {handles : Handles} {fuel : Nat} {rest : List Token} (hrest : rest.head? ≠ some .item)
    {anchors : List (List Char × Nat)} (hfuel : 2 * (itemsTokens items).length + 1 ≤ fuel) :
    readDashItems handles fuel ⟨itemsTokens items ++ rest, anchors⟩ =
      .ok (itemNodes items, ⟨rest, anchors⟩) := by
  induction items generalizing fuel with
  | nil =>
    obtain ⟨left, rfl⟩ : ∃ left, fuel = left + 1 := ⟨fuel - 1, by omega⟩
    rw [itemsTokens, List.nil_append, readDashItems]
    cases rest with
    | nil => rfl
    | cons token rest =>
      cases token <;> first | rfl | exact absurd rfl hrest
  | cons item items ih =>
    obtain ⟨hitem, hitemsRest⟩ := List.forall_mem_cons.1 hitems
    rw [itemsTokens, List.length_cons, List.length_append] at hfuel
    obtain ⟨left, rfl⟩ : ∃ left, fuel = left + 2 := ⟨fuel - 2, by omega⟩
    have hvalue : readOrEmpty handles (left + 1) .block endsDashItem
        ⟨valueTokens false item ++ (itemsTokens items ++ rest), anchors⟩ =
          .ok (ofJson item, ⟨itemsTokens items ++ rest, anchors⟩) := by
      rw [readOrEmpty_value]
      · exact hitem handles false .block left _ anchors (by decide)
          (fun h => absurd h Bool.false_ne_true) (by rw [Bool.toNat_false]; omega)
      · rintro token hstarts
        cases token <;> first | rfl | cases hstarts
    have hlater : readDashItems handles (left + 1) ⟨itemsTokens items ++ rest, anchors⟩ =
        .ok (itemNodes items, ⟨rest, anchors⟩) := ih hitemsRest (by omega)
    rw [itemsTokens, List.cons_append, List.append_assoc]
    show readOrEmpty handles (left + 1) .block endsDashItem ⟨_, anchors⟩ >>= _ = _
    rw [hvalue]
    show readDashItems handles (left + 1) ⟨_, anchors⟩ >>= _ = _
    rw [hlater]
    rfl

theorem isRead_array {items : List Json} (hitems : ∀ item ∈ items, IsRead item) :
    IsRead (.array items) := by
  intro handles underKey place fuel rest anchors hplace hunder hfuel
  cases items with
  | nil =>
    have hlength : (valueTokens underKey (.array [])).length = 2 := rfl
    obtain ⟨left, rfl⟩ : ∃ left, fuel = left + 2 := ⟨fuel - 2, by omega⟩
    exact read_emptySequence
  | cons item items =>
    cases underKey with
    | false =>
      have hlength : (valueTokens false (.array (item :: items))).length =
          (itemsTokens (item :: items)).length + 2 := by
        show (Token.blockSequence :: (itemsTokens (item :: items) ++ [.blockEnd])).length = _
        rw [List.length_cons, List.length_append, List.length_singleton]
      obtain ⟨left, rfl⟩ : ∃ left, fuel = left + 1 := ⟨fuel - 1, by omega⟩
      have htokens : valueTokens false (.array (item :: items)) ++ rest =
          .blockSequence :: (itemsTokens (item :: items) ++ .blockEnd :: rest) := by
        show Token.blockSequence :: (itemsTokens (item :: items) ++ [.blockEnd]) ++ rest = _
        rw [List.cons_append, List.append_assoc, List.singleton_append]
      rw [htokens]
      exact read_blockSequence hplace (readBlockItems_items hitems rest (by omega))
    | true =>
      obtain ⟨rfl, hrest⟩ := hunder rfl
      have hlength : (valueTokens true (.array (item :: items))).length =
          (itemsTokens (item :: items)).length := rfl
      rw [Bool.toNat_true] at hfuel
      obtain ⟨left, rfl⟩ : ∃ left, fuel = left + 1 := ⟨fuel - 1, by omega⟩
      exact read_dashes (readDashItems_items hitems hrest (by omega))

theorem head?_entriesTokens (entries : List (String × Json)) (rest : List Token) :
    (entriesTokens entries ++ .blockEnd :: rest).head? ≠ some .item := by
  intro h
  cases entries with
  | nil => cases h
  | cons entry entries => cases h

/-- The entries of a block mapping. -/
theorem readBlockEntries_entries {entries : List (String × Json)}
    (hvalues : ∀ entry ∈ entries, IsRead entry.2) {handles : Handles} {fuel : Nat}
    (rest : List Token) {anchors : List (List Char × Nat)}
    (hfuel : 2 * (entriesTokens entries).length + 1 ≤ fuel) :
    readBlockEntries handles fuel ⟨entriesTokens entries ++ .blockEnd :: rest, anchors⟩ =
      .ok (entryNodes entries, ⟨rest, anchors⟩) := by
  induction entries generalizing fuel with
  | nil =>
    obtain ⟨left, rfl⟩ : ∃ left, fuel = left + 1 := ⟨fuel - 1, by omega⟩
    rfl
  | cons entry entries ih =>
    obtain ⟨key, value⟩ := entry
    obtain ⟨hvalue, hvaluesRest⟩ := List.forall_mem_cons.1 hvalues
    simp only [entriesTokens, List.length_cons, List.length_append] at hfuel
    obtain ⟨left, rfl⟩ : ∃ left, fuel = left + 4 := ⟨fuel - 4, by omega⟩
    have hkey : ∀ tokens, readOrEmpty handles (left + 3) .blockEntry endsBlockEntry
        ⟨textToken key.toList :: tokens, anchors⟩ =
          .ok (ofText key.toList, ⟨tokens, anchors⟩) := fun tokens => read_scalar _ _
    have hread : readOrEmpty handles (left + 2) .blockEntry endsBlockEntry
        ⟨valueTokens (isSimpleKey key) value ++ (entriesTokens entries ++ .blockEnd :: rest),
          anchors⟩ =
          .ok (ofJson value, ⟨entriesTokens entries ++ .blockEnd :: rest, anchors⟩) := by
      have hbound := Bool.toNat_le (isSimpleKey key)
      have henough : 2 * (valueTokens (isSimpleKey key) value).length +
          2 * (isSimpleKey key).toNat ≤ left + 1 := by omega
      rw [readOrEmpty_value]
      · exact hvalue handles (isSimpleKey key) .blockEntry (left + 1) _ anchors (by decide)
          (fun _ => ⟨rfl, head?_entriesTokens entries rest⟩) henough
      · rintro token hstarts
        cases token <;> first | rfl | cases hstarts
    have hlater : readBlockEntries handles (left + 3)
        ⟨entriesTokens entries ++ .blockEnd :: rest, anchors⟩ =
          .ok (entryNodes entries, ⟨rest, anchors⟩) := ih hvaluesRest (by omega)
    rw [entriesTokens]
    simp only [List.cons_append, List.append_assoc]
    show readOrEmpty handles (left + 3) .blockEntry endsBlockEntry ⟨_, anchors⟩ >>= _ = _
    rw [hkey]
    show readOrEmpty handles (left + 2) .blockEntry endsBlockEntry ⟨_, anchors⟩ >>= _ = _
    rw [hread]
    show readBlockEntries handles (left + 3) ⟨_, anchors⟩ >>= _ = _
    rw [hlater]
    rfl

theorem isRead_object {entries : List (String × Json)}
    (hvalues : ∀ entry ∈ entries, IsRead entry.2) : IsRead (.object entries) := by
  intro handles underKey place fuel rest anchors hplace _ hfuel
  cases entries with
  | nil =>
    have hlength : (valueTokens underKey (.object [])).length = 2 := rfl
    obtain ⟨left, rfl⟩ : ∃ left, fuel = left + 2 := ⟨fuel - 2, by omega⟩
    exact read_emptyMapping
  | cons entry entries =>
    have hlength : (valueTokens underKey (.object (entry :: entries))).length =
        (entriesTokens (entry :: entries)).length + 2 := by
      show (Token.blockMapping :: (entriesTokens (entry :: entries) ++ [.blockEnd])).length = _
      rw [List.length_cons, List.length_append, List.length_singleton]
    obtain ⟨left, rfl⟩ : ∃ left, fuel = left + 1 := ⟨fuel - 1, by omega⟩
    have htokens : valueTokens underKey (.object (entry :: entries)) ++ rest =
        .blockMapping :: (entriesTokens (entry :: entries) ++ .blockEnd :: rest) := by
      show Token.blockMapping :: (entriesTokens (entry :: entries) ++ [.blockEnd]) ++ rest = _
      rw [List.cons_append, List.append_assoc, List.singleton_append]
    rw [htokens]
    exact read_blockMapping hplace (readBlockEntries_entries hvalues rest (by omega))

/-! ### What nodes stand for -/

variable {document : Document} {depth : Nat}

theorem value_scalar {text : List Char} {plain : Bool} {value : Json}
    (h : Document.scalarValue noProperties text plain = .ok value) :
    document.value depth (.scalar noProperties text plain) = pure value := by
  have hfollow : document.follow (.scalar noProperties text plain) =
      pure (.scalar noProperties text plain) := rfl
  have hlift : (liftM (Document.scalarValue noProperties text plain) : Document.Reading Json) =
      pure value := by
    rw [h]
    rfl
  cases depth with
  | zero =>
    rw [Document.value, hfollow, pure_bind]
    exact hlift
  | succ depth =>
    rw [Document.value, hfollow, pure_bind]
    exact hlift

theorem value_null : document.value depth (ofJson .null) = pure .null :=
  value_scalar rfl

theorem value_bool (value : Bool) :
    document.value depth (ofJson (.bool value)) = pure (.bool value) := by
  cases value with
  | false => exact value_scalar rfl
  | true => exact value_scalar rfl

/-- A text is written without quotes only if it stands for itself then. -/
theorem scalarValue_text {text : List Char} (h : Unbroken text) :
    Document.scalarValue noProperties text (Style.ofChars text == .plain) =
      .ok (.string (String.ofList text)) := by
  rcases Style.ofChars_cases h with ⟨hstyle, -, hambiguous⟩ | ⟨hstyle, -⟩ | hstyle
  · have hmeaning : Meaning.ofChars text = .text := by
      rw [Style.isAmbiguous] at hambiguous
      cases hcase : Meaning.ofChars text <;> rw [hcase] at hambiguous <;>
        first | rfl | cases hambiguous
    rw [hstyle]
    show (Meaning.ofChars text).value text = _
    rw [hmeaning]
    rfl
  · rw [hstyle]
    rfl
  · rw [hstyle]
    rfl

theorem value_string {text : String} (h : Unbroken text.toList) :
    document.value depth (ofJson (.string text)) = pure (.string text) := by
  have hvalue := scalarValue_text h
  rw [String.ofList_toList] at hvalue
  exact value_scalar hvalue

theorem value_array {items : List Json}
    (hitems : ∀ item ∈ items, document.value depth (ofJson item) = pure item) :
    document.value (depth + 1) (ofJson (.array items)) = pure (.array items) := by
  have hall : (itemNodes items).mapM (document.value depth) = pure items := by
    induction items with
    | nil => rfl
    | cons item items ih =>
      obtain ⟨hitem, hrest⟩ := List.forall_mem_cons.1 hitems
      rw [itemNodes, List.mapM_cons, hitem, pure_bind, ih hrest, pure_bind]
  have hfollow : document.follow (.sequence noProperties (itemNodes items)) =
      pure (.sequence noProperties (itemNodes items)) := rfl
  rw [ofJson, Document.value, hfollow, pure_bind]
  show (pure () : Document.Reading Unit) >>= (fun _ => _) = _
  rw [pure_bind, hall, pure_bind]

/-- A reading of entries that reads each of them as itself. -/
theorem mapM_entryNodes {f : Node × Node → Document.Reading (String × Json)}
    {entries : List (String × Json)}
    (h : ∀ key value, (key, value) ∈ entries →
      f (ofText key.toList, ofJson value) = pure (key, value)) :
    (entryNodes entries).mapM f = pure entries := by
  induction entries with
  | nil => rfl
  | cons entry entries ih =>
    obtain ⟨key, value⟩ := entry
    have hrest := ih fun key value hentry => h key value (List.mem_cons_of_mem _ hentry)
    rw [entryNodes, List.mapM_cons, h key value List.mem_cons_self, pure_bind, hrest, pure_bind]

theorem value_object {entries : List (String × Json)} (hkeys : (entries.map Prod.fst).Nodup)
    (hvalues : ∀ entry ∈ entries, document.value depth (ofJson entry.2) = pure entry.2) :
    document.value (depth + 1) (ofJson (.object entries)) = pure (.object entries) := by
  have hkey : ∀ key : String, document.key (ofText key.toList) = pure key := by
    intro key
    have hscalar : document.key (ofText key.toList) = pure (String.ofList key.toList) := rfl
    rw [hscalar, String.ofList_toList]
  have hfollow : document.follow (.mapping noProperties (entryNodes entries)) =
      pure (.mapping noProperties (entryNodes entries)) := rfl
  rw [ofJson, Document.value, hfollow, pure_bind]
  show (pure () : Document.Reading Unit) >>= (fun _ => _) = _
  rw [pure_bind, mapM_entryNodes, pure_bind, Table.ofList_eq_self hkeys]
  -- each entry is read as itself
  intro key value hentry
  show (document.key (ofText key.toList) >>= fun key =>
    document.value depth (ofJson value) >>= fun value => pure (key, value)) = _
  rw [hkey, pure_bind, hvalues (key, value) hentry, pure_bind]

end ApiShorthand.Yaml.Node
