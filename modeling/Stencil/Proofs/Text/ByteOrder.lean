import Mathlib.Data.String.Basic

namespace Stencil.Text

/-!
# The order of bytes

Texts are compared character by character, and their UTF-8 forms byte by byte.  Both give
the same order: the form of a greater character is greater at the first byte where the two
differ, and there is such a byte whatever follows.
-/

/-- The UTF-8 form of a text. -/
def bytes (text : String) : List UInt8 := text.toUTF8.data.toList

theorem bytes_eq (text : String) : bytes text = text.toList.flatMap String.utf8EncodeChar := by
  rw [bytes, String.toUTF8_eq_toByteArray, ← String.utf8Encode_toList, List.utf8Encode]
  simp

theorem toNat_val_lt (c : Char) : c.val.toNat < 0x110000 := by
  rcases c.valid with below | above
  · have small : c.val.toNat < 0xd800 := below
    omega
  · exact above.2

theorem ofNat_cons_lt_iff {low high : Nat} (lowByte : low < 256) (highByte : high < 256)
    {front back : List UInt8} : UInt8.ofNat low :: front < UInt8.ofNat high :: back ↔
      low < high ∨ low = high ∧ front < back := by
  rw [List.cons_lt_cons_iff, UInt8.lt_iff_toNat_lt, ← UInt8.toNat_inj,
    UInt8.toNat_ofNat_of_lt' lowByte, UInt8.toNat_ofNat_of_lt' highByte]

/-- The first bytes in which two characters differ decide, whatever follows. -/
theorem utf8EncodeChar_append_lt {c d : Char} (less : c < d) (front back : List UInt8) :
    String.utf8EncodeChar c ++ front < String.utf8EncodeChar d ++ back := by
  have order : c.val.toNat < d.val.toNat := less
  have bound := toNat_val_lt d
  unfold String.utf8EncodeChar
  simp only
  generalize c.val.toNat = low at *
  generalize d.val.toNat = high at *
  have two (n : Nat) : n / 4096 = n / 64 / 64 := by omega
  have three (n : Nat) : n / 262144 = n / 64 / 64 / 64 := by omega
  -- A greater character has as many bytes, which hold its digits to the base of 64, or more,
  -- and then its first byte is greater.
  split_ifs <;> simp (disch := omega) only [two, three, List.cons_append, List.nil_append,
    ofNat_cons_lt_iff] <;> omega

theorem flatMap_utf8EncodeChar_lt {first second : List Char} (less : first < second) :
    first.flatMap String.utf8EncodeChar < second.flatMap String.utf8EncodeChar := by
  induction less with
  | @nil c rest =>
    rcases List.exists_cons_of_ne_nil (String.utf8EncodeChar_ne_nil (c := c)) with
      ⟨lead, more, form⟩
    rw [List.flatMap_nil, List.flatMap_cons, form]
    exact List.nil_lt_cons _ _
  | rel less =>
    rw [List.flatMap_cons, List.flatMap_cons]
    exact utf8EncodeChar_append_lt less _ _
  | cons _ ih =>
    rw [List.flatMap_cons, List.flatMap_cons]
    exact List.append_left_lt ih

/-- The order of texts is that of their bytes. -/
theorem bytes_lt_iff {left right : String} : bytes left < bytes right ↔ left < right := by
  have forward {left right : String} (less : left < right) : bytes left < bytes right := by
    rw [bytes_eq, bytes_eq]
    exact flatMap_utf8EncodeChar_lt less
  refine ⟨fun less => ?_, forward⟩
  rcases lt_trichotomy left right with before | rfl | behind
  · exact before
  · exact absurd less (List.lt_irrefl _)
  · exact absurd less (List.lt_asymm (forward behind))

end Stencil.Text
