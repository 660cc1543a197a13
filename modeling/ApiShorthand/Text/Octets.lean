/-!
# Octets

The encoding of texts as octets, and back. Octets that encode no text are read with the replacement
character for each part that does not fit, where a text has to be shown all the same.
-/

namespace ApiShorthand.Text

/-- The octets that encode a text. -/
def octetsOf (text : List Char) : List UInt8 :=
  (String.ofList text).toUTF8.toList

/-- The text that octets encode, if they encode one. -/
def ofOctets? (octets : List UInt8) : Option String :=
  String.fromUTF8? ⟨octets.toArray⟩

/-! ### Reading what may be no text -/

/-- How the octets of a character go on: the value so far, how many octets are left, and between
which bounds the next one lies. -/
structure Continuation where
  /-- The value of the octets so far. -/
  value : Nat
  /-- The number of octets that are left. -/
  left : Nat
  /-- The least next octet. -/
  low : Nat
  /-- The greatest next octet. -/
  high : Nat
deriving DecidableEq, Repr

/-- What the first octet of a character tells. -/
inductive Lead where
  /-- It is the whole character. -/
  | single (c : Char)
  /-- More octets follow. -/
  | more (continuation : Continuation)
  /-- It starts no character. -/
  | bad
deriving DecidableEq, Repr

/-- What an octet tells as the first one of a character. The bounds leave out longer codes than
needed, surrogates and codes out of range. -/
def Lead.ofOctet (octet : Nat) : Lead :=
  if octet < 0x80 then single (Char.ofNat octet)
  else if octet < 0xC2 then bad
  else if octet < 0xE0 then more ⟨octet - 0xC0, 1, 0x80, 0xBF⟩
  else if octet = 0xE0 then more ⟨0, 2, 0xA0, 0xBF⟩
  else if octet = 0xED then more ⟨0xD, 2, 0x80, 0x9F⟩
  else if octet < 0xF0 then more ⟨octet - 0xE0, 2, 0x80, 0xBF⟩
  else if octet = 0xF0 then more ⟨0, 3, 0x90, 0xBF⟩
  else if octet < 0xF4 then more ⟨octet - 0xF0, 3, 0x80, 0xBF⟩
  else if octet = 0xF4 then more ⟨4, 3, 0x80, 0x8F⟩
  else bad

/-- Reads octets as characters, with one replacement character for each longest run of octets that
starts a character and does not complete it, and for each octet that starts none. -/
def replaceBad : Option Continuation → List UInt8 → List Char
  | none, [] => []
  | some _, [] => ['\uFFFD']
  | open?, octet :: rest =>
    let afresh : List Char :=
      match Lead.ofOctet octet.toNat with
      | .single c => c :: replaceBad none rest
      | .more continuation => replaceBad (some continuation) rest
      | .bad => '\uFFFD' :: replaceBad none rest
    match open? with
    | none => afresh
    | some continuation =>
      if continuation.low ≤ octet.toNat && octet.toNat ≤ continuation.high then
        let value := 64 * continuation.value + (octet.toNat - 0x80)
        if continuation.left ≤ 1 then Char.ofNat value :: replaceBad none rest
        else replaceBad (some ⟨value, continuation.left - 1, 0x80, 0xBF⟩) rest
      else '\uFFFD' :: afresh

/-- The text that octets encode, with replacement characters where they encode none. -/
def ofOctetsReplacing (octets : List UInt8) : String :=
  String.ofList (replaceBad none octets)

end ApiShorthand.Text
