import ApiShorthand.Json.Basic
import ApiShorthand.Proofs.Table

/-!
# Proper values

A value is proper if no object in it has two entries of one key, and its integers are in the range
in which integers are kept. Readers make no other values, and a proper value that is printed can be
read again as it was.
-/

namespace ApiShorthand.Json

/-- The keys of every object are different, and every integer is in range. -/
inductive IsProper : Json → Prop where
  /-- The value null. -/
  | null : IsProper null
  /-- A truth value. -/
  | bool (value : Bool) : IsProper (bool value)
  /-- An integer in range. -/
  | int {value : Int} (hmin : minInt ≤ value) (hmax : value ≤ maxInt) : IsProper (int value)
  /-- A floating-point number. -/
  | float (value : Float) : IsProper (float value)
  /-- A text. -/
  | string (value : String) : IsProper (string value)
  /-- An array of proper values. -/
  | array {items : List Json} (hitems : ∀ item ∈ items, IsProper item) : IsProper (array items)
  /-- An object of proper values under different keys. -/
  | object {entries : List (String × Json)} (hkeys : (Table.keys entries).Nodup)
    (hvalues : ∀ entry ∈ entries, IsProper entry.2) : IsProper (object entries)

theorem isProper_object_iff {entries : List (String × Json)} :
    IsProper (object entries) ↔
      (Table.keys entries).Nodup ∧ ∀ entry ∈ entries, IsProper entry.2 := by
  constructor
  · intro h
    cases h with
    | object hkeys hvalues => exact ⟨hkeys, hvalues⟩
  · rintro ⟨hkeys, hvalues⟩
    exact .object hkeys hvalues

theorem isProper_ofFloat (x : Float) : IsProper (ofFloat x) := by
  rw [ofFloat]
  split
  · exact .float x
  · exact .null

/-- A table of proper values makes a proper object. -/
theorem isProper_ofList {entries : List (String × Json)}
    (h : ∀ entry ∈ entries, IsProper entry.2) : IsProper (object (Table.ofList entries)) :=
  .object (Table.nodup_keys_ofList entries) fun entry hentry =>
    h entry (Table.mem_of_mem_ofList hentry)

end ApiShorthand.Json
