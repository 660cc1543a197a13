import ApiShorthand.Proofs.Yaml.Plain
import ApiShorthand.Yaml.Token.Scanner

/-!
# Scanning block collections

Outside of flow collections a scanner is what has been read, `Blocks`, with the text that is left.
`Scanner.LeadsTo` relates it to the scanner behind a part of the text. Blanks and line breaks lead
to what is behind them; a line that is less deep closes collections (`leadsTo_close`); and each
indicator adds its tokens (`leadsTo_item`, `leadsTo_key`, `leadsTo_value`, `leadsTo_colon`).
-/

namespace ApiShorthand.Yaml

open Printer

namespace Scanner

/-! ### From one state to another -/

/-- A scanner gets to another one by reading a number of tokens at most. -/
def LeadsTo (s : Scanner) (count : Nat) (t : Scanner) : Prop :=
  ∃ steps ≤ count, ∀ fuel, s.run (fuel + steps + 1) = t.run (fuel + 1)

namespace LeadsTo

variable {s t u : Scanner}

theorem trans {m n : Nat} (hst : s.LeadsTo m t) (htu : t.LeadsTo n u) : s.LeadsTo (m + n) u := by
  obtain ⟨first, hfirst, hrun⟩ := hst
  obtain ⟨second, hsecond, hrest⟩ := htu
  refine ⟨first + second, Nat.add_le_add hfirst hsecond, fun fuel => ?_⟩
  have hfuel : fuel + (first + second) + 1 = fuel + second + first + 1 := by omega
  rw [hfuel, hrun, hrest]

theorem mono {m n : Nat} (h : s.LeadsTo m t) (hle : m ≤ n) : s.LeadsTo n t := by
  obtain ⟨steps, hsteps, hrun⟩ := h
  exact ⟨steps, Nat.le_trans hsteps hle, hrun⟩

/-- Scanners that go on in the same way lead to each other. -/
theorem of_run (h : ∀ fuel, s.run (fuel + 1) = t.run (fuel + 1)) : s.LeadsTo 0 t :=
  ⟨0, Nat.le_refl 0, h⟩

/-- What stands in front of the next token does not matter. -/
theorem of_toToken (h : s.toToken = t.toToken) : s.LeadsTo 0 t := by
  refine of_run fun fuel => ?_
  rw [run, run, h]

/-- A scanner that leads to the end of the text finishes as it does there. -/
theorem run_eq {count fuel : Nat} (h : s.LeadsTo count t) (hend : t.toToken.rest = [])
    (hfuel : count ≤ fuel) : s.run (fuel + 1) = t.toToken.finish := by
  obtain ⟨steps, hsteps, hrun⟩ := h
  have hsum : fuel + 1 = fuel - steps + steps + 1 := by omega
  rw [hsum, hrun, run]
  simp only [hend]

end LeadsTo

end Scanner

/-! ### What has been read in a block -/

/-- The tokens that were read and the block collections that are open. -/
structure Blocks where
  /-- The tokens, the last one first. -/
  tokens : List Token
  /-- The column of the innermost collection, or `-1`. -/
  indent : Int
  /-- The columns of the collections around it, the inner ones first. -/
  outer : List Int

namespace Blocks

/-- Nothing has been read. -/
def start : Blocks := ⟨[], -1, []⟩

/-- More tokens, which open and close nothing. -/
def add (b : Blocks) (tokens : List Token) : Blocks :=
  { b with tokens := tokens.reverse ++ b.tokens }

/-- A collection opened at a column, if it is deeper than the innermost one. -/
def enter (b : Blocks) (column : Nat) (opening : Token) : Blocks :=
  if b.indent < column then ⟨opening :: b.tokens, column, b.indent :: b.outer⟩ else b

/-- The scanner with a text left. -/
def scanner (b : Blocks) (keyAllowed : Bool) (keyPlace : Option KeyPlace) (rest : List Spot) :
    Scanner :=
  ⟨rest, b.tokens, b.indent, b.outer, keyAllowed, keyPlace, []⟩

/-- The place that is remembered for a key. -/
def keyPlace (b : Blocks) (keyAllowed : Bool) (here : Spot) : Option KeyPlace :=
  if keyAllowed then some ⟨b.indent == (here.column : Int), b.tokens.length, here⟩ else none

variable {b : Blocks} {keyAllowed : Bool} {place : Option KeyPlace}

theorem add_add (b : Blocks) (first second : List Token) :
    (b.add first).add second = b.add (first ++ second) := by
  rw [add, add, add, List.reverse_append, List.append_assoc]

theorem enter_of_lt {column : Nat} (h : b.indent < column) (opening : Token) :
    b.enter column opening = ⟨opening :: b.tokens, column, b.indent :: b.outer⟩ :=
  if_pos h

theorem enter_of_eq {column : Nat} (h : b.indent = column) (opening : Token) :
    b.enter column opening = b :=
  if_neg (h ▸ Int.lt_irrefl _)

theorem indent_enter {column : Nat} (h : b.indent ≤ column) (opening : Token) :
    (b.enter column opening).indent = column := by
  rw [enter]
  split
  · rfl
  · omega

/-! ### White space -/

theorem toToken_scanner (rest : List Spot) :
    (b.scanner keyAllowed place rest).toToken =
      b.scanner (Scanner.skipSpace false keyAllowed false rest).1 place
        (Scanner.skipSpace false keyAllowed false rest).2 := rfl

theorem toToken_visible {c : Char} (hc : StartsToken c) (p : Position) (text : List Char) :
    (b.scanner keyAllowed place (spotsAt p (c :: text))).toToken =
      b.scanner keyAllowed place (spotsAt p (c :: text)) := by
  have hblank : c ≠ ' ' ∧ c ≠ '\t' := by
    constructor <;> (rintro rfl; exact absurd hc.visible (by decide))
  have hskip : Scanner.skipSpace false keyAllowed false (spotsAt p (c :: text)) =
      (keyAllowed, spotsAt p (c :: text)) := by
    rw [spotsAt_cons, Scanner.skipSpace]
    simp [isBreak_eq_false hc.visible, hc.ne_comment, hc.ne_mark, hblank.1, hblank.2]
  rw [toToken_scanner, hskip]

theorem toToken_spaces (p : Position) (column : Nat) (text : List Char) :
    (b.scanner keyAllowed place (spotsAt p (spaces column ++ text))).toToken =
      (b.scanner keyAllowed place (spotsAt (p.after (spaces column)) text)).toToken := by
  induction column generalizing p with
  | zero => rfl
  | succ column ih => exact ih (p.next ' ')

theorem toToken_feed (p : Position) (text : List Char) :
    (b.scanner keyAllowed place (spotsAt p ('\n' :: text))).toToken =
      (b.scanner true place (spotsAt (p.next '\n') text)).toToken := by
  cases keyAllowed <;> rfl

theorem toToken_tokenSpots {indent : Int} {rest : List Char} (h : GoesOn indent rest)
    (p : Position) :
    (b.scanner keyAllowed place (tokenSpots p rest)).toToken =
      (b.scanner keyAllowed place (spotsAt p rest)).toToken := by
  cases h with
  | nil => rfl
  | line column hcolumn hc => rw [tokenSpots_line p column hc, toToken_spaces]

/-! ### Indentation -/

/-- The blocks that are left when those deeper than a column are closed. -/
def closed (b : Blocks) (column : Int) : Blocks :=
  ⟨(Scanner.closeIndents column b.tokens b.indent b.outer).1,
    (Scanner.closeIndents column b.tokens b.indent b.outer).2.1,
    (Scanner.closeIndents column b.tokens b.indent b.outer).2.2⟩

theorem closed_of_le {column : Int} (h : b.indent ≤ column) : b.closed column = b := by
  obtain ⟨tokens, indent, outer⟩ := b
  cases outer with
  | nil => rfl
  | cons next outer => rw [closed, Scanner.closeIndents, if_neg (Int.not_lt.2 h)]

theorem closed_of_lt {tokens : List Token} {column here indent : Int} {outer : List Int}
    (h : here < column) :
    closed ⟨tokens, column, indent :: outer⟩ here =
      closed ⟨.blockEnd :: tokens, indent, outer⟩ here := by
  rw [closed, Scanner.closeIndents, if_pos h, closed]

/-! ### Places of keys -/

theorem saveKey_scanner (rest : List Spot) (here : Spot) :
    (b.scanner keyAllowed none rest).saveKey here =
      .ok (b.scanner keyAllowed (b.keyPlace keyAllowed here) rest) := by
  cases keyAllowed <;> rfl

theorem refreshKeys_scanner {here : Spot} {fresh : Option KeyPlace}
    (h : Scanner.refresh here place = .ok fresh) (rest : List Spot) :
    (b.scanner keyAllowed place rest).refreshKeys here = .ok (b.scanner keyAllowed fresh rest) := by
  show (Scanner.refresh here place >>= fun keyPlace => _) = _
  rw [h]
  rfl

/-! ### Running on -/

variable {p : Position} {fuel : Nat}

theorem run_end (h : Scanner.giveUp place = .ok none) :
    (b.scanner keyAllowed place []).run (fuel + 1) = .ok (b.closed (-1)).tokens.reverse := by
  show (Scanner.giveUp place >>= fun keyPlace => _) >>= _ = _
  rw [h]
  rfl

theorem run_visible {c : Char} (hc : StartsToken c) {fresh : Option KeyPlace}
    (h : Scanner.refresh (p.spot c) place = .ok fresh) (text : List Char) :
    (b.scanner keyAllowed place (spotsAt p (c :: text))).run (fuel + 1) =
      ((b.closed p.column).scanner keyAllowed fresh (spotsAt p (c :: text))).readToken
        (p.spot c) (spotsAt (p.next c) text) >>= Scanner.run fuel := by
  rw [Scanner.run, toToken_visible hc]
  show Scanner.refreshKeys _ (p.spot c) >>= (fun s => _) = _
  rw [refreshKeys_scanner h]
  rfl

theorem run_spaces (column : Nat) (text : List Char) :
    (b.scanner keyAllowed place (spotsAt p (spaces column ++ text))).run (fuel + 1) =
      (b.scanner keyAllowed place (spotsAt (p.after (spaces column)) text)).run (fuel + 1) := by
  rw [Scanner.run, toToken_spaces, Scanner.run]

/-- Blanks are skipped. -/
theorem leadsTo_spaces (column : Nat) (text : List Char) :
    (b.scanner keyAllowed place (spotsAt p (spaces column ++ text))).LeadsTo 0
      (b.scanner keyAllowed place (spotsAt (p.after (spaces column)) text)) :=
  .of_run fun _ => run_spaces column text

/-- A line that is less deep, and the end of the text, close a collection. -/
theorem leadsTo_close {tokens : List Token} {column : Nat} {indent : Int} {outer : List Int}
    (hcolumn : indent < column) {rest : List Char} (h : GoesOn indent rest) (hp : p.column = 0) :
    (scanner ⟨tokens, column, indent :: outer⟩ true none (spotsAt p rest)).LeadsTo 0
      (scanner ⟨.blockEnd :: tokens, indent, outer⟩ true none (spotsAt p rest)) := by
  refine .of_run fun fuel => ?_
  cases h with
  | nil =>
    have hend : (-1 : Int) < column := by omega
    rw [spotsAt, run_end rfl, closed_of_lt hend, run_end rfl]
  | @line next c rest hnext hc =>
    have hhere : (((p.after (spaces next)).column : Nat) : Int) < column := by
      rw [column_after_spaces hp]
      exact Int.lt_of_le_of_lt hnext hcolumn
    rw [run_spaces, run_visible hc rfl, closed_of_lt hhere, run_spaces, run_visible hc rfl]

/-- A place of a key on an earlier line is given up, where no key is required. -/
theorem leadsTo_stale {outer : Blocks} {key : Position} (hrequired : outer.indent ≠ key.column)
    (hline : key.line < p.line) (wasAllowed : Bool) (first : Char) {indent : Int}
    {rest : List Char} (h : GoesOn indent rest) :
    (b.scanner true (outer.keyPlace wasAllowed (key.spot first)) (spotsAt p rest)).LeadsTo 0
      (b.scanner true none (spotsAt p rest)) := by
  have hgiven : Scanner.giveUp (outer.keyPlace wasAllowed (key.spot first)) = .ok none := by
    cases wasAllowed with
    | false => rfl
    | true =>
      have hnot : (outer.indent == (key.column : Int)) = false := beq_eq_false_iff_ne.2 hrequired
      show (if (outer.indent == (key.column : Int)) = true then _ else _) = _
      rw [hnot]
      rfl
  refine .of_run fun fuel => ?_
  cases h with
  | nil => rw [spotsAt, run_end hgiven, run_end rfl]
  | @line column c rest hcolumn hc =>
    have hrefresh : Scanner.refresh ((p.after (spaces column)).spot c)
        (outer.keyPlace wasAllowed (key.spot first)) = .ok none := by
      cases wasAllowed with
      | false => rfl
      | true =>
        have hlater : key.line < ((p.after (spaces column)).spot c).line := by
          rw [spaces, Position.after_spaces]
          exact hline
        show (if (decide (key.line < _) || _) = true then _ else _) = _
        rw [decide_eq_true hlater, Bool.true_or, if_pos rfl]
        exact hgiven
    rw [run_spaces, run_visible hc hrefresh, run_spaces, run_visible hc rfl]

/-- A place of a key stays, if it is near and on the same line. -/
theorem refresh_near {key : Position} (hline : p.line = key.line)
    (hindex : p.index ≤ key.index + 1024) (first c : Char) :
    Scanner.refresh (p.spot c) (b.keyPlace keyAllowed (key.spot first)) =
      .ok (b.keyPlace keyAllowed (key.spot first)) := by
  cases keyAllowed with
  | false => rfl
  | true =>
    have hnear : ¬ (key.line < p.line ∨ key.index + 1024 < p.index) := by omega
    rw [← decide_eq_true_eq (p := key.line < p.line), ← decide_eq_true_eq (p := _ < p.index),
      ← Bool.or_eq_true] at hnear
    exact if_neg hnear

/-! ### Tokens -/

/-- A token leads to what is behind it. -/
theorem leadsTo_token {c : Char} (hc : StartsToken c)
    (hplace : Scanner.refresh (p.spot c) place = .ok place) (hcolumn : b.indent ≤ p.column)
    {text : List Char} {t : Scanner}
    (hread : (b.scanner keyAllowed place (spotsAt p (c :: text))).readToken (p.spot c)
      (spotsAt (p.next c) text) = .ok t) :
    (b.scanner keyAllowed place (spotsAt p (c :: text))).LeadsTo 1 t := by
  refine ⟨1, Nat.le_refl 1, fun fuel => ?_⟩
  rw [run_visible hc hplace, closed_of_le hcolumn, hread]
  rfl

theorem openHere_scanner (rest : List Spot) (here : Spot) (opening : Token) :
    (b.scanner true place rest).openHere here opening =
      .ok ((b.enter here.column opening).scanner true place rest) := by
  show Except.ok (if (true && decide (b.indent < here.column)) = true then _ else _) = _
  rw [Bool.true_and, enter]
  by_cases h : b.indent < here.column
  · rw [if_pos (decide_eq_true h), if_pos h]
    rfl
  · rw [if_neg (mt of_decide_eq_true h), if_neg h]

/-- An indicator in front of a gap is a token of its own. -/
theorem readToken_indicator {c next : Char} (hc : c = '-' ∨ c = '?' ∨ c = ':')
    (hnext : next = ' ' ∨ next = '\n') (text : List Char) :
    (b.scanner keyAllowed place (spotsAt p (c :: next :: text))).readToken (p.spot c)
        (spotsAt (p.next c) (next :: text)) =
      if c = '-' then
        (b.scanner keyAllowed place (spotsAt p (c :: next :: text))).readItem (p.spot c)
          (spotsAt (p.next c) (next :: text))
      else if c = '?' then
        (b.scanner keyAllowed place (spotsAt p (c :: next :: text))).readKey (p.spot c)
          (spotsAt (p.next c) (next :: text))
      else (b.scanner keyAllowed place (spotsAt p (c :: next :: text))).readValue (p.spot c)
        (spotsAt (p.next c) (next :: text)) := by
  have hmark : Spot.atDocumentMark
      (b.scanner keyAllowed place (spotsAt p (c :: next :: text))).rest = false :=
    atDocumentMark_eq_false fun _ => by
      rcases hc with rfl | rfl | rfl <;> rcases hnext with rfl | rfl <;> rfl
  have hgap : Spot.atGap (spotsAt (p.next c) (next :: text)) = true := by
    rcases hnext with rfl | rfl <;> rfl
  rw [Scanner.readToken, hmark, hgap]
  rcases hc with rfl | rfl | rfl <;> simp

/-- The dash of an item. -/
theorem leadsTo_item (hcolumn : b.indent ≤ p.column) (text : List Char) :
    (b.scanner true none (spotsAt p ('-' :: ' ' :: text))).LeadsTo 1
      (((b.enter p.column .blockSequence).add [.item]).scanner true none
        (spotsAt (p.after ['-', ' ']) text)) := by
  have hread : (b.scanner true none (spotsAt p ('-' :: ' ' :: text))).readToken (p.spot '-')
      (spotsAt (p.next '-') (' ' :: text)) =
      .ok (((b.enter p.column .blockSequence).add [.item]).scanner true none
        (spotsAt (p.next '-') (' ' :: text))) := by
    rw [readToken_indicator (.inl rfl) (.inl rfl), if_pos rfl, Scanner.readItem, openHere_scanner]
    rfl
  exact (leadsTo_token ⟨by decide, by decide, by decide⟩ rfl hcolumn hread).trans
    (leadsTo_spaces 1 text)

/-- The question mark of a key. -/
theorem leadsTo_key (hcolumn : b.indent ≤ p.column) (text : List Char) :
    (b.scanner true none (spotsAt p ('?' :: ' ' :: text))).LeadsTo 1
      (((b.enter p.column .blockMapping).add [.key]).scanner true none
        (spotsAt (p.after ['?', ' ']) text)) := by
  have hread : (b.scanner true none (spotsAt p ('?' :: ' ' :: text))).readToken (p.spot '?')
      (spotsAt (p.next '?') (' ' :: text)) =
      .ok (((b.enter p.column .blockMapping).add [.key]).scanner true none
        (spotsAt (p.next '?') (' ' :: text))) := by
    rw [readToken_indicator (.inr (.inl rfl)) (.inl rfl), if_neg (by decide), if_pos rfl,
      Scanner.readKey, openHere_scanner]
    rfl
  exact (leadsTo_token ⟨by decide, by decide, by decide⟩ rfl hcolumn hread).trans
    (leadsTo_spaces 1 text)

/-- The colon of a value behind a key with a question mark. -/
theorem leadsTo_value (hcolumn : b.indent = p.column) (text : List Char) :
    (b.scanner true none (spotsAt p (':' :: ' ' :: text))).LeadsTo 1
      ((b.add [.value]).scanner true none (spotsAt (p.after [':', ' ']) text)) := by
  have hread : (b.scanner true none (spotsAt p (':' :: ' ' :: text))).readToken (p.spot ':')
      (spotsAt (p.next ':') (' ' :: text)) =
      .ok ((b.add [.value]).scanner true none (spotsAt (p.next ':') (' ' :: text))) := by
    rw [readToken_indicator (.inr (.inr rfl)) (.inl rfl), if_neg (by decide), if_neg (by decide)]
    show Scanner.openHere _ _ _ >>= _ = _
    rw [openHere_scanner, Position.column_spot, enter_of_eq hcolumn]
    rfl
  exact (leadsTo_token ⟨by decide, by decide, by decide⟩ rfl (Int.le_of_eq hcolumn) hread).trans
    (leadsTo_spaces 1 text)

/-- Where the text in front of a colon is a key, its tokens and those of a mapping are put there. -/
theorem readValue_scalar (text : List Char) (plain : Bool) (key here : Spot)
    (spots rest : List Spot) :
    ((b.add [.scalar text plain]).scanner false (b.keyPlace true key) spots).readValue here rest =
      .ok (((b.enter key.column .blockMapping).add [.key, .scalar text plain, .value]).scanner
        false none rest) := by
  have hlater : b.tokens.length + 1 - b.tokens.length = 1 := Nat.add_sub_cancel_left _ 1
  by_cases hopens : b.indent < key.column
  · simp [Scanner.readValue, Scanner.openBlock, Scanner.emit, Scanner.inFlow, scanner, add, enter,
      keyPlace, hlater, hopens]
    rfl
  · simp [Scanner.readValue, Scanner.openBlock, Scanner.emit, Scanner.inFlow, scanner, add, enter,
      keyPlace, hlater, hopens]
    rfl

/-- The colon behind a key without an indicator, which is known as a key now. -/
theorem leadsTo_colon {key : Position} {next : Char} (first : Char) (text : List Char)
    (plain : Bool) (hnext : next = ' ' ∨ next = '\n') (hline : p.line = key.line)
    (hindex : p.index ≤ key.index + 1024) (hcolumn : b.indent ≤ p.column) (rest : List Char) :
    ((b.add [.scalar text plain]).scanner false (b.keyPlace true (key.spot first))
        (spotsAt p (':' :: next :: rest))).LeadsTo 1
      (((b.enter key.column .blockMapping).add [.key, .scalar text plain, .value]).scanner false
        none (spotsAt (p.next ':') (next :: rest))) := by
  have hdeep : (b.add [Token.scalar text plain]).indent ≤ p.column := hcolumn
  refine leadsTo_token ⟨by decide, by decide, by decide⟩ (refresh_near hline hindex first ':')
    hdeep ?_
  rw [readToken_indicator (.inr (.inr rfl)) hnext, if_neg (by decide), if_neg (by decide),
    readValue_scalar]
  rfl

/-! ### Empty collections -/

/-- The characters around an empty collection and their tokens. -/
def IsBrackets (first last : Char) (opening closing : Token) : Prop :=
  (first = '[' ∧ last = ']' ∧ opening = .openSequence ∧ closing = .closeSequence) ∨
    (first = '{' ∧ last = '}' ∧ opening = .openMapping ∧ closing = .closeMapping)

/-- The scanner behind the opening of a flow collection. -/
def opened (b : Blocks) (opening : Token) (place : Option KeyPlace) (rest : List Spot) : Scanner :=
  { (b.add [opening]).scanner true none rest with outerKeyPlaces := [place] }

theorem readToken_opening {first last : Char} {opening closing : Token}
    (h : IsBrackets first last opening closing) (text : List Char) :
    (b.scanner keyAllowed none (spotsAt p (first :: last :: text))).readToken (p.spot first)
        (spotsAt (p.next first) (last :: text)) =
      .ok (b.opened opening (b.keyPlace keyAllowed (p.spot first))
        (spotsAt (p.next first) (last :: text))) := by
  have hmark : Spot.atDocumentMark
      (b.scanner keyAllowed none (spotsAt p (first :: last :: text))).rest = false :=
    atDocumentMark_eq_false fun _ => by rcases h with ⟨rfl, rfl, -⟩ | ⟨rfl, rfl, -⟩ <;> rfl
  have hread : (b.scanner keyAllowed none (spotsAt p (first :: last :: text))).readToken
      (p.spot first) (spotsAt (p.next first) (last :: text)) =
      (b.scanner keyAllowed none (spotsAt p (first :: last :: text))).readOpening opening
        (p.spot first) (spotsAt (p.next first) (last :: text)) := by
    rw [Scanner.readToken, hmark]
    rcases h with ⟨rfl, rfl, rfl, rfl⟩ | ⟨rfl, rfl, rfl, rfl⟩ <;> simp
  rw [hread, Scanner.readOpening, saveKey_scanner]
  rfl

theorem run_opened {first last : Char} {opening closing : Token}
    (h : IsBrackets first last opening closing) {fresh : Option KeyPlace}
    (hfresh : Scanner.refresh (p.spot last) fresh = .ok fresh) (hcolumn : p.column ≠ 0)
    (text : List Char) :
    (b.opened opening fresh (spotsAt p (last :: text))).run (fuel + 1) =
      ((b.add [opening, closing]).scanner false fresh (spotsAt (p.next last) text)).run fuel := by
  have hmark :
      Spot.atDocumentMark (b.opened opening fresh (spotsAt p (last :: text))).rest = false :=
    atDocumentMark_spotsAt hcolumn (last :: text)
  have hspace : (b.opened opening fresh (spotsAt p (last :: text))).toToken =
      b.opened opening fresh (spotsAt p (last :: text)) := by
    rcases h with ⟨-, rfl, -⟩ | ⟨-, rfl, -⟩ <;> rfl
  have hkeys : (b.opened opening fresh (spotsAt p (last :: text))).refreshKeys (p.spot last) =
      .ok (b.opened opening fresh (spotsAt p (last :: text))) := by
    show (List.mapM (Scanner.refresh (p.spot last)) [fresh] >>= fun places => _) = _
    rw [List.mapM_cons, hfresh]
    rfl
  have hread : (b.opened opening fresh (spotsAt p (last :: text))).readToken (p.spot last)
      (spotsAt (p.next last) text) =
      (b.opened opening fresh (spotsAt p (last :: text))).readClosing closing
        (spotsAt (p.next last) text) := by
    rw [Scanner.readToken, hmark]
    rcases h with ⟨rfl, rfl, rfl, rfl⟩ | ⟨rfl, rfl, rfl, rfl⟩ <;> simp
  rw [Scanner.run, hspace]
  show (Scanner.refreshKeys _ (p.spot last) >>= fun s => _) = _
  rw [hkeys]
  show Scanner.readToken (b.opened opening fresh (spotsAt p (last :: text))) (p.spot last) _ >>= _ =
    _
  rw [hread]
  rfl

/-- An empty collection. The place of a key in front of it is known again behind it. -/
theorem leadsTo_brackets {first last : Char} {opening closing : Token}
    (h : IsBrackets first last opening closing) (hcolumn : b.indent ≤ p.column)
    (rest : List Char) :
    (b.scanner keyAllowed none (spotsAt p (first :: last :: rest))).LeadsTo 2
      ((b.add [opening, closing]).scanner false (b.keyPlace keyAllowed (p.spot first))
        (spotsAt ((p.next first).next last) rest)) := by
  have hstart : StartsToken first := by
    rcases h with ⟨rfl, -⟩ | ⟨rfl, -⟩ <;> exact ⟨by decide, by decide, by decide⟩
  have hne : first ≠ '\n' := ne_feed hstart.visible
  have hfresh : Scanner.refresh ((p.next first).spot last)
      (b.keyPlace keyAllowed (p.spot first)) = .ok (b.keyPlace keyAllowed (p.spot first)) := by
    have hsize : first.utf8Size ≤ 1024 := Nat.le_trans (Char.utf8Size_le_four first) (by decide)
    have hplace : (p.next first).line = p.line ∧ (p.next first).index ≤ p.index + 1024 := by
      rw [Position.next_of_ne hne]
      exact ⟨rfl, Nat.add_le_add_left hsize _⟩
    exact refresh_near hplace.1 hplace.2 first last
  have hinner : (b.opened opening (b.keyPlace keyAllowed (p.spot first))
      (spotsAt (p.next first) (last :: rest))).LeadsTo 1 _ :=
    ⟨1, Nat.le_refl 1, fun fuel => run_opened h hfresh (column_next hne p) rest⟩
  exact (leadsTo_token hstart rfl hcolumn (readToken_opening h rest)).trans hinner

end Blocks

end ApiShorthand.Yaml
