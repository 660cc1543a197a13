import ApiShorthand.Proofs.Grammar.Path
import Mathlib.Data.List.Chain
import Mathlib.Data.List.Infix

/-!
# The placeholders of a path

`parameters` finds, in any text, the names that stand between braces, each once and in the order in
which they first occur (`mem_parameters_iff`, `pairwise_parameters`). A path is cut into its slashes,
runs of literal characters, escapes and placeholders in one way only (`IsSplit.unique`), and the
names that are found in it are those of the placeholders (`IsSplit.parameters_eq`).
-/

namespace ApiShorthand.Path

open Text

/-! ### Names between braces -/

/-- A name that can stand between braces: it has a character, and no brace or slash. -/
structure IsBracedName (name : List Char) : Prop where
  /-- A name has a character. -/
  ne_nil : name ≠ []
  /-- No character of a name is a brace or a slash. -/
  chars : ∀ c ∈ name, c ∉ ['{', '}', '/']

/-- A name with the braces around it. -/
def braced (name : List Char) : List Char :=
  '{' :: (name ++ ['}'])

/-- Whether a character goes on with a name between braces. -/
def isNameChar (c : Char) : Bool :=
  c ∉ ['{', '}', '/']

/-- The name that a closing brace ends, of which the last letters were read before. -/
def closedName? (letters text : List Char) : Option (List Char) :=
  match letters.reverse ++ text.takeWhile isNameChar, text.dropWhile isNameChar with
  | c :: name, '}' :: _ => some (c :: name)
  | _, _ => none

/-- The name that stands between braces at the start of a text. -/
def nameAtStart? : List Char → Option (List Char)
  | '{' :: rest => closedName? [] rest
  | _ => none

theorem closedName?_cons {c : Char} (h : isNameChar c = true) (letters rest : List Char) :
    closedName? letters (c :: rest) = closedName? (c :: letters) rest := by
  rw [closedName?, closedName?, List.takeWhile_cons_of_pos h, List.dropWhile_cons_of_pos h,
    List.reverse_cons, List.append_assoc, List.singleton_append]

theorem closedName?_of_open {c : Char} (h : isNameChar c = false) (hc : c ≠ '}')
    (letters rest : List Char) : closedName? letters (c :: rest) = none := by
  rw [closedName?, List.takeWhile_cons_of_neg (by simp [h]),
    List.dropWhile_cons_of_neg (by simp [h])]
  split
  · rename_i heq
    cases heq
    exact absurd rfl hc
  · rfl

/-- With an open name, what is read is that name if a brace closes it, and then what else there is. -/
theorem bracedNames_some (letters text : List Char) :
    bracedNames (some letters) text =
      (closedName? letters text).toList ++ bracedNames none text := by
  induction text generalizing letters with
  | nil =>
    rw [closedName?]
    split
    · rename_i heq
      cases heq
    · rfl
  | cons c rest ih =>
    by_cases hopen : c = '{'
    · subst hopen
      rw [closedName?_of_open (by decide) (by decide)]
      rfl
    by_cases hclose : c = '}'
    · subst hclose
      rw [closedName?, List.takeWhile_cons_of_neg (by decide),
        List.dropWhile_cons_of_neg (by decide), List.append_nil]
      cases letters with
      | nil => rfl
      | cons d letters =>
        obtain ⟨e, name, hname⟩ := List.exists_cons_of_ne_nil
          (List.reverse_ne_nil_iff.2 (List.cons_ne_nil d letters))
        show (d :: letters).reverse :: bracedNames none rest = _
        rw [hname]
        rfl
    by_cases hslash : c = '/'
    · subst hslash
      rw [closedName?_of_open (by decide) (by decide)]
      rfl
    have hname : isNameChar c = true := by simp [isNameChar, hopen, hclose, hslash]
    rw [closedName?_cons hname, bracedNames, Option.map_some, ih, bracedNames, Option.map_none]
    all_goals assumption

/-- The names that are found are those that stand between braces, from place to place. -/
theorem bracedNames_none (text : List Char) :
    bracedNames none text = text.tails.filterMap nameAtStart? := by
  induction text with
  | nil => rfl
  | cons c rest ih =>
    rw [List.tails_cons, List.filterMap_cons]
    by_cases hopen : c = '{'
    · subst hopen
      show bracedNames (some []) rest = _
      rw [bracedNames_some, ih, nameAtStart?]
      cases closedName? [] rest <;> rfl
    · have hstart : nameAtStart? (c :: rest) = none := by
        rw [nameAtStart?]
        rintro rest' heq
        cases heq
        exact hopen rfl
      rw [hstart]
      by_cases hclose : c = '}'
      · subst hclose
        exact ih
      by_cases hslash : c = '/'
      · subst hslash
        exact ih
      rw [bracedNames, Option.map_none, ih]
      all_goals assumption

theorem nameAtStart?_eq_some_iff {text name : List Char} :
    nameAtStart? text = some name ↔ IsBracedName name ∧ braced name <+: text := by
  constructor
  · intro h
    unfold nameAtStart? at h
    split at h
    · rename_i rest
      unfold closedName? at h
      split at h
      · rename_i c letters after hletters hafter
        cases h
        rw [List.reverse_nil, List.nil_append] at hletters
        refine ⟨⟨List.cons_ne_nil _ _, fun d hd => ?_⟩, after, ?_⟩
        · rw [← hletters] at hd
          simpa [isNameChar] using List.mem_takeWhile_imp hd
        · have hrest := List.takeWhile_append_dropWhile (p := isNameChar) (l := rest)
          rw [hletters, hafter] at hrest
          rw [braced, ← hrest]
          simp
      · cases h
    · cases h
  · rintro ⟨hname, after, rfl⟩
    have hall : ∀ c ∈ name, isNameChar c = true := by
      intro c hc
      simpa [isNameChar] using hname.chars c hc
    have hclose : ∀ c ∈ ('}' :: after).head?, isNameChar c = false := by
      rintro c ⟨⟩
      decide
    have htake := Text.takeWhile_append_eq hall hclose
    have hdrop := Text.dropWhile_append_eq hall hclose
    obtain ⟨c, letters, rfl⟩ := List.exists_cons_of_ne_nil hname.ne_nil
    show nameAtStart? ('{' :: ((c :: letters) ++ ['}'] ++ after)) = _
    rw [List.append_assoc, List.singleton_append, nameAtStart?, closedName?, htake, hdrop]
    rfl

/-! ### Lists without repetitions -/

theorem withoutRepetitions_concat (names : List (List Char)) (name : List Char) :
    withoutRepetitions (names ++ [name]) =
      if name ∈ withoutRepetitions names then withoutRepetitions names
      else withoutRepetitions names ++ [name] := by
  rw [withoutRepetitions, List.foldl_append]
  rfl

theorem mem_withoutRepetitions {names : List (List Char)} {name : List Char} :
    name ∈ withoutRepetitions names ↔ name ∈ names := by
  induction names using List.reverseRecOn with
  | nil => exact Iff.rfl
  | append_singleton names last ih =>
    rw [withoutRepetitions_concat, List.mem_append, List.mem_singleton]
    split
    · rename_i hlast
      rw [ih, or_iff_left_of_imp]
      rintro rfl
      exact ih.1 hlast
    · rw [List.mem_append, List.mem_singleton, ih]

theorem withoutRepetitions_eq_eraseDups (names : List (List Char)) :
    withoutRepetitions names = names.eraseDups := by
  induction names using List.reverseRecOn with
  | nil => rfl
  | append_singleton names last ih =>
    rw [withoutRepetitions_concat, List.eraseDups_append, List.removeAll, ← ih]
    by_cases hlast : last ∈ names
    · rw [if_pos (mem_withoutRepetitions.2 hlast), List.filter_cons_of_neg (by simpa using hlast)]
      simp
    · rw [if_neg (mem_withoutRepetitions.not.2 hlast),
        List.filter_cons_of_pos (by simpa using hlast)]
      simp [List.eraseDups_cons]

/-- What is kept stands in the order in which it first stood. -/
theorem pairwise_withoutRepetitions (names : List (List Char)) :
    (withoutRepetitions names).Pairwise fun a b => names.idxOf a < names.idxOf b := by
  induction names using List.reverseRecOn with
  | nil => exact .nil
  | append_singleton names last ih =>
    -- what was kept before keeps its place
    have hkept : (withoutRepetitions names).Pairwise fun a b =>
        (names ++ [last]).idxOf a < (names ++ [last]).idxOf b := by
      refine ih.imp_of_mem fun ha hb hlt => ?_
      rwa [List.idxOf_append_of_mem (mem_withoutRepetitions.1 ha),
        List.idxOf_append_of_mem (mem_withoutRepetitions.1 hb)]
    rw [withoutRepetitions_concat]
    split
    · exact hkept
    · rename_i hnew
      rw [mem_withoutRepetitions] at hnew
      refine List.pairwise_append.2 ⟨hkept, List.pairwise_singleton _ _, fun a ha b hb => ?_⟩
      obtain rfl := List.mem_singleton.1 hb
      have hmem := mem_withoutRepetitions.1 ha
      rw [List.idxOf_append_of_mem hmem, List.idxOf_append_of_notMem hnew]
      exact lt_of_lt_of_le (List.idxOf_lt_length_of_mem hmem) (Nat.le_add_right _ _)

/-- Of two values of a partial function on a list, the one that is given first is given by an
earlier element. -/
theorem findIdx_lt_of_idxOf_lt {α β : Type} [BEq β] [LawfulBEq β] {f : α → Option β} {l : List α}
    {a b : β} (h : (l.filterMap f).idxOf a < (l.filterMap f).idxOf b) :
    l.findIdx (fun x => f x == some a) < l.findIdx fun x => f x == some b := by
  induction l with
  | nil => exact absurd h (lt_irrefl _)
  | cons x l ih =>
    rw [List.findIdx_cons, List.findIdx_cons]
    cases hx : f x with
    | none =>
      rw [List.filterMap_cons_none hx] at h
      exact Nat.succ_lt_succ (ih h)
    | some y =>
      rw [List.filterMap_cons_some hx, List.idxOf_cons, List.idxOf_cons] at h
      rw [Option.some_beq_some, Option.some_beq_some]
      cases hb : y == b with
      | true =>
        rw [hb] at h
        exact absurd h (Nat.not_lt_zero _)
      | false =>
        rw [hb] at h
        cases ha : y == a with
        | true => exact Nat.succ_pos _
        | false =>
          rw [ha] at h
          exact Nat.succ_lt_succ (ih (Nat.lt_of_succ_lt_succ h))

/-! ### Names of a text -/

/-- The first place at which a text is found in another one. -/
def IsFirstAt (part text : List Char) (index : Nat) : Prop :=
  part <+: text.drop index ∧ ∀ earlier < index, ¬ part <+: text.drop earlier

theorem isFirstAt_findIdx {text name : List Char}
    (h : name ∈ text.tails.filterMap nameAtStart?) :
    IsFirstAt (braced name) text (text.tails.findIdx fun tail => nameAtStart? tail == some name) := by
  obtain ⟨tail, htail, hname⟩ := List.mem_filterMap.1 h
  have hlt : text.tails.findIdx (fun tail => nameAtStart? tail == some name) < text.tails.length :=
    List.findIdx_lt_length_of_exists ⟨tail, htail, by simpa using hname⟩
  constructor
  · have hat := List.findIdx_getElem (w := hlt)
    rw [beq_iff_eq, List.getElem_tails] at hat
    exact (nameAtStart?_eq_some_iff.1 hat).2
  · intro earlier hearlier hprefix
    have hnot := List.not_of_lt_findIdx hearlier
    rw [List.getElem_tails, beq_eq_false_iff_ne] at hnot
    exact hnot (nameAtStart?_eq_some_iff.2 ⟨(nameAtStart?_eq_some_iff.1 hname).1, hprefix⟩)

theorem mem_bracedNames_iff {text name : List Char} :
    name ∈ bracedNames none text ↔ IsBracedName name ∧ braced name <:+: text := by
  rw [bracedNames_none, List.mem_filterMap]
  simp only [nameAtStart?_eq_some_iff, List.mem_tails, List.infix_iff_prefix_suffix]
  constructor
  · rintro ⟨tail, hsuffix, hname, hprefix⟩
    exact ⟨hname, tail, hprefix, hsuffix⟩
  · rintro ⟨hname, tail, hprefix, hsuffix⟩
    exact ⟨tail, hsuffix, hname, hprefix⟩

/-- The names of a text are those that stand in it between braces. -/
theorem mem_parameters_iff {path name : String} :
    name ∈ parameters path ↔ IsBracedName name.toList ∧ braced name.toList <:+: path.toList := by
  rw [parameters, List.mem_map, ← mem_bracedNames_iff]
  constructor
  · rintro ⟨letters, hletters, rfl⟩
    rw [String.toList_ofList]
    exact mem_withoutRepetitions.1 hletters
  · intro h
    exact ⟨name.toList, mem_withoutRepetitions.2 h, String.ofList_toList⟩

/-- The names of a text stand in the order in which they first occur in it. -/
theorem pairwise_parameters (path : String) :
    (parameters path).Pairwise fun a b => ∃ i j, IsFirstAt (braced a.toList) path.toList i ∧
      IsFirstAt (braced b.toList) path.toList j ∧ i < j := by
  rw [parameters, List.pairwise_map]
  refine (pairwise_withoutRepetitions _).imp_of_mem fun ha hb hlt => ?_
  rw [mem_withoutRepetitions, bracedNames_none] at ha hb
  rw [bracedNames_none] at hlt
  rw [String.toList_ofList, String.toList_ofList]
  exact ⟨_, _, isFirstAt_findIdx ha, isFirstAt_findIdx hb, findIdx_lt_of_idxOf_lt hlt⟩

theorem IsFirstAt.unique {part text : List Char} {i j : Nat} (hi : IsFirstAt part text i)
    (hj : IsFirstAt part text j) : i = j := by
  rcases lt_trichotomy i j with hlt | heq | hlt
  · exact absurd hi.1 (hj.2 i hlt)
  · exact heq
  · exact absurd hj.1 (hi.2 j hlt)

theorem nodup_parameters (path : String) : (parameters path).Nodup := by
  refine (pairwise_parameters path).imp fun h => ?_
  rintro rfl
  obtain ⟨i, j, hi, hj, hlt⟩ := h
  exact absurd (hi.unique hj) hlt.ne

/-! ### The parts of a path -/

/-- A part of a path. -/
inductive Part where
  /-- A slash. -/
  | slash
  /-- A run of characters that stand for themselves. -/
  | run (letters : List Char) (hne : letters ≠ []) (h : ∀ c ∈ letters, LiteralChar c)
  /-- An escape: a percent sign and two hexadecimal digits. -/
  | escape (high low : Char) (hhigh : high.isHexDigit = true) (hlow : low.isHexDigit = true)
  /-- A placeholder: a name between braces. -/
  | placeholder (name : List Char) (hne : name ≠ []) (h : ∀ c ∈ name, PlaceholderChar c)

namespace Part

/-- How a part is written. -/
def text : Part → List Char
  | slash => ['/']
  | run letters _ _ => letters
  | escape high low _ _ => ['%', high, low]
  | placeholder name _ _ => braced name

/-- Whether a part is a run of literal characters. -/
def isRun : Part → Bool
  | run _ _ _ => true
  | _ => false

/-- The name of a placeholder. -/
def name? : Part → Option (List Char)
  | placeholder name _ _ => some name
  | _ => none

end Part

/-- A text is cut into parts. Runs are as long as they can be, so that none follows another. -/
structure IsSplit (parts : List Part) (text : List Char) : Prop where
  /-- The parts make up the text. -/
  text_eq : text = parts.flatMap Part.text
  /-- No run follows a run. -/
  maximal : parts.IsChain fun a b => ¬ (a.isRun = true ∧ b.isRun = true)

/-- No run goes on into a text. -/
def EndsRun (rest : List Char) : Prop :=
  ∀ c ∈ rest.head?, ¬ LiteralChar c

theorem not_literalChar_slash : ¬ LiteralChar '/' := by
  unfold LiteralChar
  decide

theorem not_literalChar_percent : ¬ LiteralChar '%' := fun h => h.ne.2 rfl

theorem not_literalChar_brace : ¬ LiteralChar '{' := fun h => h.ne.1 rfl

theorem not_literalChar_closingBrace : ¬ LiteralChar '}' := by
  unfold LiteralChar
  decide

theorem isBracedName_of_placeholder {name : List Char} (hne : name ≠ [])
    (h : ∀ c ∈ name, PlaceholderChar c) : IsBracedName name :=
  ⟨hne, fun c hc => (h c hc).1⟩

theorem nameAtStart?_braced_append {name : List Char} (hne : name ≠ [])
    (h : ∀ c ∈ name, PlaceholderChar c) (rest : List Char) :
    nameAtStart? (braced name ++ rest) = some name :=
  nameAtStart?_eq_some_iff.2 ⟨isBracedName_of_placeholder hne h, List.prefix_append _ _⟩

theorem append_ne_cons {letters : List Char} (hne : letters ≠ [])
    (h : ∀ c ∈ letters, LiteralChar c) {c : Char} (hc : ¬ LiteralChar c) (a b : List Char) :
    letters ++ a ≠ c :: b := by
  obtain ⟨d, letters, rfl⟩ := List.exists_cons_of_ne_nil hne
  intro heq
  cases heq
  exact hc (h _ List.mem_cons_self)

/-- Two runs at the start of one text are the same, if neither goes on behind its end. -/
theorem eq_of_append_eq_append {letters others a b : List Char}
    (hletters : ∀ c ∈ letters, LiteralChar c) (hothers : ∀ c ∈ others, LiteralChar c)
    (ha : EndsRun a) (hb : EndsRun b) (h : letters ++ a = others ++ b) :
    letters = others ∧ a = b := by
  rcases List.append_eq_append_iff.1 h with ⟨more, rfl, rfl⟩ | ⟨more, rfl, rfl⟩
  · cases more with
    | nil => exact ⟨(List.append_nil _).symm, rfl⟩
    | cons c more => exact absurd (hothers c (by simp)) (ha c rfl)
  · cases more with
    | nil => exact ⟨List.append_nil _, rfl⟩
    | cons c more => exact absurd (hletters c (by simp)) (hb c rfl)

/-- The first part of a text is known from the text. -/
theorem Part.eq_of_append_eq {part other : Part} {a b : List Char}
    (h : part.text ++ a = other.text ++ b) (hpart : part.isRun = true → EndsRun a)
    (hother : other.isRun = true → EndsRun b) : part = other ∧ a = b := by
  cases part with
  | slash =>
    cases other with
    | slash => exact ⟨rfl, (List.cons.inj h).2⟩
    | run letters hne hl => exact absurd h.symm (append_ne_cons hne hl not_literalChar_slash _ _)
    | escape high low hhigh hlow => exact absurd (List.cons.inj h).1 (by decide)
    | placeholder name hne hname => exact absurd (List.cons.inj h).1 (by decide)
  | run letters hne hl =>
    cases other with
    | slash => exact absurd h (append_ne_cons hne hl not_literalChar_slash _ _)
    | run others hne' hl' =>
      obtain ⟨rfl, rfl⟩ := eq_of_append_eq_append hl hl' (hpart rfl) (hother rfl) h
      exact ⟨rfl, rfl⟩
    | escape high low hhigh hlow =>
      exact absurd h (append_ne_cons hne hl not_literalChar_percent _ _)
    | placeholder name hne' hname =>
      exact absurd h (append_ne_cons hne hl not_literalChar_brace _ _)
  | escape high low hhigh hlow =>
    cases other with
    | slash => exact absurd (List.cons.inj h).1 (by decide)
    | run letters hne hl => exact absurd h.symm (append_ne_cons hne hl not_literalChar_percent _ _)
    | escape high' low' hhigh' hlow' =>
      cases h
      exact ⟨rfl, rfl⟩
    | placeholder name hne hname => exact absurd (List.cons.inj h).1 (by decide)
  | placeholder name hne hname =>
    cases other with
    | slash => exact absurd (List.cons.inj h).1 (by decide)
    | run letters hne' hl => exact absurd h.symm (append_ne_cons hne' hl not_literalChar_brace _ _)
    | escape high low hhigh hlow => exact absurd (List.cons.inj h).1 (by decide)
    | placeholder name' hne' hname' =>
      -- a text starts with one name only
      have hnames : nameAtStart? (braced name ++ a) = nameAtStart? (braced name' ++ b) :=
        congrArg nameAtStart? h
      rw [nameAtStart?_braced_append hne hname, nameAtStart?_braced_append hne' hname',
        Option.some_inj] at hnames
      subst hnames
      exact ⟨rfl, List.append_cancel_left h⟩

namespace IsSplit

variable {parts others : List Part} {text : List Char}

theorem endsRun {part : Part} {rest : List Part} (h : (part :: rest).IsChain fun a b =>
    ¬ (a.isRun = true ∧ b.isRun = true)) (hrun : part.isRun = true) :
    EndsRun (rest.flatMap Part.text) := by
  intro c hc hliteral
  cases rest with
  | nil => cases hc
  | cons next rest =>
    have hnext := (List.isChain_cons_cons.1 h).1
    cases next with
    | slash =>
      cases Option.mem_some.1 hc
      exact not_literalChar_slash hliteral
    | run letters hne hl => exact hnext ⟨hrun, rfl⟩
    | escape high low hhigh hlow =>
      cases Option.mem_some.1 hc
      exact not_literalChar_percent hliteral
    | placeholder name hne hname =>
      cases Option.mem_some.1 hc
      exact not_literalChar_brace hliteral

theorem ne_nil_text (part : Part) : part.text ≠ [] := by
  cases part with
  | run letters hne h => exact hne
  | _ => exact List.cons_ne_nil _ _

/-- **A text is cut into parts in one way only.** -/
theorem unique (h : IsSplit parts text) (hothers : IsSplit others text) : others = parts := by
  obtain ⟨rfl, hmaximal⟩ := h
  obtain ⟨heq, hmaximal'⟩ := hothers
  induction parts generalizing others with
  | nil =>
    cases others with
    | nil => rfl
    | cons other others =>
      rw [List.flatMap_nil, List.flatMap_cons, List.nil_eq, List.append_eq_nil_iff] at heq
      exact absurd heq.1 (ne_nil_text other)
  | cons part parts ih =>
    cases others with
    | nil =>
      rw [List.flatMap_nil, List.flatMap_cons, List.append_eq_nil_iff] at heq
      exact absurd heq.1 (ne_nil_text part)
    | cons other others =>
      rw [List.flatMap_cons, List.flatMap_cons] at heq
      obtain ⟨rfl, hrest⟩ := Part.eq_of_append_eq heq (endsRun hmaximal) (endsRun hmaximal')
      rw [ih hmaximal.tail hrest hmaximal'.tail]

/-- A part in front of others that does not make two runs of one. -/
theorem cons (h : IsSplit parts text) (part : Part)
    (hrun : part.isRun = true → ∀ next ∈ parts.head?, next.isRun = false) :
    IsSplit (part :: parts) (part.text ++ text) where
  text_eq := by rw [h.text_eq, List.flatMap_cons]
  maximal := by
    refine h.maximal.cons fun next hnext => ?_
    rintro ⟨hpart, hnextRun⟩
    rw [hrun hpart next hnext] at hnextRun
    cases hnextRun

end IsSplit

/-- Pieces are gathered into parts. -/
theorem exists_isSplit (pieces : List Piece) :
    ∃ parts, IsSplit parts (pieces.flatMap Piece.text) := by
  induction pieces with
  | nil => exact ⟨[], rfl, .nil⟩
  | cons piece pieces ih =>
    obtain ⟨parts, hparts⟩ := ih
    rw [List.flatMap_cons]
    cases piece with
    | slash => exact ⟨_, hparts.cons .slash nofun⟩
    | escape high low hhigh hlow => exact ⟨_, hparts.cons (.escape high low hhigh hlow) nofun⟩
    | placeholder name hne h => exact ⟨_, hparts.cons (.placeholder name hne h) nofun⟩
    | literal c h =>
      have hc : ∀ d ∈ [c], LiteralChar d := List.forall_mem_singleton.2 h
      have hsingle : (∀ next ∈ parts.head?, next.isRun = false) →
          ∃ parts', IsSplit parts' ((Piece.literal c h).text ++ pieces.flatMap Piece.text) :=
        fun hnext => ⟨_, hparts.cons (.run [c] (List.cons_ne_nil _ _) hc) fun _ => hnext⟩
      cases parts with
      | nil => exact hsingle nofun
      | cons part parts =>
        cases part with
        | run letters hne hletters =>
          -- the character makes a run longer that is there
          refine ⟨.run (c :: letters) (List.cons_ne_nil _ _) (List.forall_mem_cons.2 ⟨h, hletters⟩) ::
            parts, ?_, ?_⟩
          · rw [hparts.text_eq]
            rfl
          · have hmaximal := hparts.maximal
            rw [List.isChain_cons] at hmaximal ⊢
            exact hmaximal
        | _ =>
          refine hsingle fun next hnext => ?_
          cases Option.mem_some.1 hnext
          rfl

/-- Every path can be cut into parts. -/
theorem exists_isSplit_of_isPath {text : List Char} (h : isPath text = true) :
    ∃ parts, IsSplit parts text := by
  obtain ⟨pieces, rfl⟩ := isPath_iff.1 h
  exact exists_isSplit (.slash :: pieces)

/-- Only a placeholder has a brace. -/
theorem Part.exists_placeholder {part : Part} (h : '{' ∈ part.text ∨ '}' ∈ part.text) :
    ∃ name hne hname, part = placeholder name hne hname := by
  cases part with
  | slash => exact absurd h (by decide)
  | run letters hne hl =>
    rcases h with h | h
    · exact absurd (hl _ h) not_literalChar_brace
    · exact absurd (hl _ h) not_literalChar_closingBrace
  | escape high low hhigh hlow =>
    have hopen : ∀ c : Char, c.isHexDigit = true → '{' ≠ c ∧ '}' ≠ c := by
      intro c hc
      constructor
      · rintro rfl
        exact absurd hc (by decide)
      · rintro rfl
        exact absurd hc (by decide)
    simp [Part.text, hopen high hhigh, hopen low hlow] at h
  | placeholder name hne hname => exact ⟨name, hne, hname, rfl⟩

/-! ### The names of a path -/

theorem bracedNames_append_of_notMem {front : List Char} (h : '{' ∉ front) (rest : List Char) :
    bracedNames none (front ++ rest) = bracedNames none rest := by
  induction front with
  | nil => rfl
  | cons c front ih =>
    rw [List.mem_cons, not_or] at h
    have hstart : nameAtStart? (c :: (front ++ rest)) = none := by
      rw [nameAtStart?]
      rintro rest' heq
      cases heq
      exact h.1 rfl
    rw [List.cons_append, bracedNames_none, List.tails_cons, List.filterMap_cons_none hstart,
      ← bracedNames_none, ih h.2]

theorem bracedNames_text_append (part : Part) (rest : List Char) :
    bracedNames none (part.text ++ rest) = part.name?.toList ++ bracedNames none rest := by
  cases hname : part.name? with
  | none =>
    refine bracedNames_append_of_notMem (fun hmem => ?_) rest
    obtain ⟨name, hne, h, rfl⟩ := part.exists_placeholder (Or.inl hmem)
    cases hname
  | some name =>
    cases part with
    | placeholder name' hne h =>
      cases hname
      have hstart : nameAtStart? ('{' :: (name ++ ['}'] ++ rest)) = some name :=
        nameAtStart?_braced_append hne h rest
      have hopen : '{' ∉ name ++ ['}'] := by
        rw [List.mem_append, not_or]
        exact ⟨fun hmem => (h _ hmem).1 (by decide), by decide⟩
      have hrest : bracedNames none (braced name ++ rest) =
          name :: bracedNames none (name ++ ['}'] ++ rest) := by
        rw [bracedNames_none, braced, List.cons_append, List.tails_cons,
          List.filterMap_cons_some hstart, ← bracedNames_none]
      rw [Part.text, hrest, bracedNames_append_of_notMem hopen]
      rfl
    | _ => cases hname

/-- **The names of a path** are those of its placeholders, each once. -/
theorem IsSplit.parameters_eq {parts : List Part} {path : String} (h : IsSplit parts path.toList) :
    parameters path = ((parts.filterMap Part.name?).eraseDups).map String.ofList := by
  have hnames : ∀ parts : List Part,
      bracedNames none (parts.flatMap Part.text) = parts.filterMap Part.name? := by
    intro parts
    induction parts with
    | nil => rfl
    | cons part parts ih =>
      rw [List.flatMap_cons, bracedNames_text_append, ih, List.filterMap_cons]
      cases part.name? <;> rfl
  rw [parameters, withoutRepetitions_eq_eraseDups, h.text_eq, hnames]

end ApiShorthand.Path
