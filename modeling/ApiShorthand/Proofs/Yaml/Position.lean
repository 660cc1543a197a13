import ApiShorthand.Proofs.Text.Blank
import ApiShorthand.Yaml.Spot
import Mathlib.Data.String.Basic

/-!
# Positions in a text

`spotsAt p text` are the characters of a text in their places, the first of which is at the position
`p`. Where the only line breaks are line feeds, these are the spots that the reader makes
(`listFrom_eq`), and they are put together from those of the parts of a text (`spotsAt_append`).
-/

namespace ApiShorthand.Yaml

/-- A place in a text. -/
structure Position where
  /-- The number of octets in front of it. -/
  index : Nat
  /-- The number of lines in front of it. -/
  line : Nat
  /-- The number of characters in front of it on its line. -/
  column : Nat

namespace Position

/-- The start of a text. -/
def start : Position := ⟨0, 0, 0⟩

/-- The place behind a character. -/
def next (p : Position) (c : Char) : Position :=
  if c = '\n' then ⟨p.index + 1, p.line + 1, 0⟩
  else ⟨p.index + c.utf8Size, p.line, p.column + 1⟩

/-- The place behind a text. -/
def after (p : Position) (text : List Char) : Position :=
  text.foldl next p

/-- A character at a place. -/
def spot (p : Position) (c : Char) : Spot :=
  ⟨c, p.index, p.line, p.column⟩

@[simp] theorem char_spot (p : Position) (c : Char) : (p.spot c).char = c := rfl

@[simp] theorem column_spot (p : Position) (c : Char) : (p.spot c).column = p.column := rfl

theorem next_of_ne {c : Char} (h : c ≠ '\n') (p : Position) :
    p.next c = ⟨p.index + c.utf8Size, p.line, p.column + 1⟩ :=
  if_neg h

theorem after_cons (p : Position) (c : Char) (text : List Char) :
    p.after (c :: text) = (p.next c).after text := rfl

theorem after_append (p : Position) (a b : List Char) :
    p.after (a ++ b) = (p.after a).after b :=
  List.foldl_append

/-- The place behind a text on one line. -/
theorem after_of_not_mem {text : List Char} (h : '\n' ∉ text) (p : Position) :
    p.after text = ⟨p.index + String.utf8Len text, p.line, p.column + text.length⟩ := by
  induction text generalizing p with
  | nil => rfl
  | cons c text ih =>
    rw [List.mem_cons, not_or] at h
    rw [after_cons, next_of_ne (Ne.symm h.1), ih h.2, String.utf8Len_cons, List.length_cons]
    simp only [mk.injEq, true_and]
    omega

theorem after_spaces (p : Position) (count : Nat) :
    p.after (List.replicate count ' ') = ⟨p.index + count, p.line, p.column + count⟩ := by
  have hsize : ∀ n, String.utf8Len (List.replicate n ' ') = n := by
    intro n
    induction n with
    | zero => rfl
    | succ n ih =>
      rw [List.replicate_succ, String.utf8Len_cons, ih]
      rfl
  have hmem : '\n' ∉ List.replicate count ' ' := fun h =>
    absurd (List.eq_of_mem_replicate h) (by decide)
  rw [after_of_not_mem hmem, hsize, List.length_replicate]

end Position

/-- The characters of a text in their places. -/
def spotsAt (p : Position) : List Char → List Spot
  | [] => []
  | c :: text => p.spot c :: spotsAt (p.next c) text

theorem spotsAt_cons (p : Position) (c : Char) (text : List Char) :
    spotsAt p (c :: text) = p.spot c :: spotsAt (p.next c) text := rfl

theorem spotsAt_append (p : Position) (a b : List Char) :
    spotsAt p (a ++ b) = spotsAt p a ++ spotsAt (p.after a) b := by
  induction a generalizing p with
  | nil => rfl
  | cons c a ih => rw [List.cons_append, spotsAt_cons, spotsAt_cons, ih, List.cons_append,
      Position.after_cons]

theorem length_spotsAt (p : Position) (text : List Char) :
    (spotsAt p text).length = text.length := by
  induction text generalizing p with
  | nil => rfl
  | cons c text ih => rw [spotsAt_cons, List.length_cons, List.length_cons, ih]

/-- Among the characters that break a line there is the line feed only. -/
def BreaksByFeed (text : List Char) : Prop :=
  ∀ c ∈ text, isBreak c = true → c = '\n'

/-- The reader puts characters in their places. -/
theorem listFrom_eq {text : List Char} (h : BreaksByFeed text) (p : Position) :
    Spot.listFrom p.index p.line p.column text = spotsAt p text := by
  induction text generalizing p with
  | nil => rfl
  | cons c text ih =>
    have hrest : BreaksByFeed text := fun d hd => h d (List.mem_cons_of_mem c hd)
    have hc := h c List.mem_cons_self
    -- a carriage return would be a break of its own
    have hreturn : c = '\r' → False := by
      rintro rfl
      exact absurd (hc (by decide)) (by decide)
    rw [Spot.listFrom.eq_3 _ _ _ _ _ (fun _ heq _ => hreturn heq), spotsAt_cons]
    by_cases hbreak : isBreak c = true
    · obtain rfl := hc hbreak
      rw [if_pos hbreak]
      exact congrArg _ (ih hrest (p.next '\n'))
    · have hne : c ≠ '\n' := by
        rintro rfl
        exact hbreak (by decide)
      rw [if_neg hbreak, Position.next_of_ne hne]
      exact congrArg _ (ih hrest ⟨p.index + c.utf8Size, p.line, p.column + 1⟩)

end ApiShorthand.Yaml
