import ApiShorthand.Text.Octets
import Mathlib.Data.List.Lex

/-!
# Octets and texts

Texts compare by their octets as they compare by their characters (`lex_octetsOf`): of two
characters the one with the greater code has the greater octet where the two encodings differ first,
and none of them is the start of the other (`lex_utf8EncodeChar_append`). Octets are read as the
text whose octets they are, and as none if there is no such text (`ofOctets?_eq_some_iff`).
-/

namespace ApiShorthand.Text

/-! ### The octets of a text -/

theorem toList_loop_toByteArray (octets : List UInt8) (i : Nat) (done : List UInt8) :
    ByteArray.toList.loop octets.toByteArray i done = done.reverse ++ octets.drop i := by
  fun_induction ByteArray.toList.loop octets.toByteArray i done with
  | case1 i done hi ih =>
    rw [List.size_toByteArray] at hi
    have hget : octets.toByteArray.get! i = octets[i] := by
      show octets.toByteArray.data[i]! = _
      rw [List.data_toByteArray]
      simp [hi]
    rw [ih, hget, List.reverse_cons, List.append_assoc, List.singleton_append,
      ← List.drop_eq_getElem_cons hi]
  | case2 i done hi =>
    rw [List.size_toByteArray] at hi
    rw [List.drop_of_length_le (by omega), List.append_nil]

theorem toList_toByteArray (octets : List UInt8) : octets.toByteArray.toList = octets := by
  have h := toList_loop_toByteArray octets 0 []
  rwa [List.reverse_nil, List.nil_append, List.drop_zero] at h

/-- The octets of a text are those of its characters in order. -/
theorem octetsOf_eq_flatMap (text : List Char) :
    octetsOf text = text.flatMap String.utf8EncodeChar :=
  toList_toByteArray _

theorem toByteArray_octetsOf (text : List Char) :
    (octetsOf text).toByteArray = (String.ofList text).toUTF8 := by
  rw [octetsOf_eq_flatMap]
  rfl

theorem octetsOf_nil : octetsOf [] = [] :=
  octetsOf_eq_flatMap []

theorem octetsOf_cons (c : Char) (text : List Char) :
    octetsOf (c :: text) = String.utf8EncodeChar c ++ octetsOf text := by
  rw [octetsOf_eq_flatMap, octetsOf_eq_flatMap, List.flatMap_cons]

/-! ### Reading octets -/

theorem fromUTF8?_eq_some_iff {bytes : ByteArray} {text : String} :
    String.fromUTF8? bytes = some text ↔ text.toUTF8 = bytes := by
  unfold String.fromUTF8?
  constructor
  · intro h
    split at h
    · cases h
      rfl
    · cases h
  · rintro rfl
    rw [String.toUTF8_eq_toByteArray, dif_pos text.isValidUTF8]
    rfl

/-- **Octets are read as the text whose octets they are.** -/
theorem ofOctets?_eq_some_iff {octets : List UInt8} {text : String} :
    ofOctets? octets = some text ↔ octets = octetsOf text.toList := by
  have hbytes : (⟨octets.toArray⟩ : ByteArray) = octets.toByteArray :=
    ByteArray.ext List.data_toByteArray.symm
  rw [ofOctets?, fromUTF8?_eq_some_iff, hbytes]
  constructor
  · intro h
    rw [octetsOf, String.ofList_toList, h, toList_toByteArray]
  · intro h
    rw [h, toByteArray_octetsOf, String.ofList_toList]

/-! ### The order -/

theorem ofNat_lt_ofNat_iff {m n : Nat} (hm : m < 256) (hn : n < 256) :
    UInt8.ofNat m < UInt8.ofNat n ↔ m < n := by
  rw [UInt8.lt_iff_toNat_lt, UInt8.toNat_ofNat', UInt8.toNat_ofNat', Nat.mod_eq_of_lt hm,
    Nat.mod_eq_of_lt hn]

theorem ofNat_eq_ofNat_iff {m n : Nat} (hm : m < 256) (hn : n < 256) :
    UInt8.ofNat m = UInt8.ofNat n ↔ m = n := by
  rw [← UInt8.toNat_inj, UInt8.toNat_ofNat', UInt8.toNat_ofNat', Nat.mod_eq_of_lt hm,
    Nat.mod_eq_of_lt hn]

/-- Of two characters, the lesser one has the lesser octets, whatever follows. -/
theorem lex_utf8EncodeChar_append {c d : Char} (h : c < d) (rest rest' : List UInt8) :
    List.Lex (· < ·) (String.utf8EncodeChar c ++ rest) (String.utf8EncodeChar d ++ rest') := by
  have hcode : c.val.toNat < d.val.toNat := h
  have hrange : d.val.toNat < 0x110000 := by
    have hvalid := d.valid
    simp only [UInt32.isValidChar, Nat.isValidChar] at hvalid
    omega
  -- six bits go into an octet, so the codes are cut at every sixth
  have htwice : ∀ n, n / 4096 = n / 64 / 64 := fun n => (Nat.div_div_eq_div_mul n 64 64).symm
  have hthrice : ∀ n, n / 262144 = n / 64 / 64 / 64 := by
    intro n
    rw [Nat.div_div_eq_div_mul, Nat.div_div_eq_div_mul]
  -- more octets start with a greater one; as many differ where the codes do first
  unfold String.utf8EncodeChar
  dsimp only
  split_ifs <;>
  · simp (disch := omega) only [List.cons_append, List.nil_append, List.cons_lex_cons_iff,
      ofNat_lt_ofNat_iff, ofNat_eq_ofNat_iff, htwice, hthrice]
    omega

/-- **Octets keep the order of texts.** -/
theorem lex_octetsOf {first second : List Char} (h : List.Lex (· < ·) first second) :
    List.Lex (· < ·) (octetsOf first) (octetsOf second) := by
  induction h with
  | @nil c text =>
    have hne : octetsOf (c :: text) ≠ [] := by
      rw [octetsOf_cons]
      exact List.append_ne_nil_of_left_ne_nil String.utf8EncodeChar_ne_nil _
    obtain ⟨octet, octets, hoctets⟩ := List.exists_cons_of_ne_nil hne
    rw [octetsOf_nil, hoctets]
    exact List.Lex.nil
  | @cons c text text' _ ih =>
    rw [octetsOf_cons, octetsOf_cons]
    exact List.Lex.append_left _ ih _
  | rel h =>
    rw [octetsOf_cons, octetsOf_cons]
    exact lex_utf8EncodeChar_append h _ _

end ApiShorthand.Text
