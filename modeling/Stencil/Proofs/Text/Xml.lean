import Mathlib.Data.List.Basic
import Stencil.Text.Xml

namespace Stencil.Text.Xml

/-!
# Encoded text holds no markup, and the whole text

An encoded text can stand wherever character data is read.  It begins no tag, it
holds no character that is not allowed there, and an ampersand in it always begins
one of the three references that encoding puts there.

Nothing else is lost.  Whoever reads the references back, once and from the left to the
right, has the text again, but for the characters that are not allowed.
-/

/-! ## Two ways to encode -/

/-- A character that needs no encoding stands for itself. -/
theorem encodeChar_eq_self {c : Char} (plain : c ≠ '&' ∧ c ≠ '<' ∧ c ≠ '>')
    (allowed : isForbidden c = false) : encodeChar c = [c] := by
  unfold encodeChar
  simp [plain, allowed]

/-- Where nothing needs encoding, the copy is the text. -/
theorem encodedCopy_eq_self {text : String} (unneeded : needsEncoding text = false) :
    encodedCopy text = text := by
  have each : ∀ c ∈ text.toList, encodeChar c = [c] := by
    intro c member
    have fine := List.any_eq_false.mp unneeded c member
    simp only [Bool.or_eq_true, beq_iff_eq, not_or, Bool.not_eq_true] at fine
    exact encodeChar_eq_self ⟨fine.1.1.1, fine.1.1.2, fine.1.2⟩ fine.2
  rw [encodedCopy, List.flatMap_congr each, List.flatMap_singleton', String.ofList_toList]

/-- So it makes no difference that a text without need is not copied. -/
theorem encode_eq (text : String) : encode text = encodedCopy text := by
  unfold encode
  split
  · rfl
  · next unneeded => exact (encodedCopy_eq_self (Bool.not_eq_true _ ▸ unneeded)).symm

theorem toList_encode (text : String) : (encode text).toList = text.toList.flatMap encodeChar := by
  rw [encode_eq, encodedCopy, String.toList_ofList]

/-! ## No markup -/

/-- What follows an ampersand. -/
def references : List (List Char) :=
  [['a', 'm', 'p', ';'], ['l', 't', ';'], ['g', 't', ';']]

/-- A text that is read as character data only. -/
structure Harmless (text : List Char) : Prop where
  tags : '<' ∉ text ∧ '>' ∉ text
  allowed : ∀ c ∈ text, isForbidden c = false
  referring : ∀ front back, text = front ++ '&' :: back →
    ∃ reference ∈ references, reference <+: back

theorem harmless_nil : Harmless [] where
  tags := ⟨List.not_mem_nil, List.not_mem_nil⟩
  allowed := fun _ impossible => absurd impossible List.not_mem_nil
  referring := fun front back impossible => by
    have := congrArg List.length impossible
    simp at this

/-- A reference is not cut in two by what follows it. -/
theorem Harmless.append {first second : List Char} (early : Harmless first)
    (late : Harmless second) : Harmless (first ++ second) where
  tags := by
    constructor
    · rw [List.mem_append, not_or]
      exact ⟨early.tags.1, late.tags.1⟩
    · rw [List.mem_append, not_or]
      exact ⟨early.tags.2, late.tags.2⟩
  allowed := by
    intro c member
    rcases List.mem_append.mp member with inFirst | inSecond
    · exact early.allowed c inFirst
    · exact late.allowed c inSecond
  referring := by
    intro front back split
    rcases List.append_eq_append_iff.mp split with ⟨between, -, behind⟩ | ⟨between, before, rest⟩
    · exact late.referring between back behind
    · cases between with
      | nil => exact late.referring [] back rest.symm
      | cons c between =>
        rcases List.cons.inj rest with ⟨rfl, rfl⟩
        rcases early.referring front between before with ⟨reference, listed, begins⟩
        exact ⟨reference, listed, begins.trans (List.prefix_append _ _)⟩

theorem harmless_reference {reference : List Char} (listed : reference ∈ references) :
    Harmless ('&' :: reference) := by
  have plain : ∀ other ∈ references, '&' ∉ other ∧
      ('<' ∉ '&' :: other ∧ '>' ∉ '&' :: other) ∧ ('&' :: other).any isForbidden = false := by
    decide
  rcases plain reference listed with ⟨single, tags, allowed⟩
  refine ⟨tags, fun c member => by simpa using List.any_eq_false.mp allowed c member, ?_⟩
  intro front back split
  cases front with
  | nil =>
    rcases List.cons.inj split with ⟨-, rfl⟩
    exact ⟨reference, listed, List.prefix_refl _⟩
  | cons c front =>
    rcases List.cons.inj split with ⟨-, rest⟩
    refine absurd ?_ single
    rw [rest]
    exact List.mem_append_right front (.head _)

theorem harmless_encodeChar (c : Char) : Harmless (encodeChar c) := by
  unfold encodeChar
  split
  · exact harmless_reference (.head _)
  · split
    · exact harmless_reference (.tail _ (.head _))
    · split
      · exact harmless_reference (.tail _ (.tail _ (.head _)))
      · split
        · exact harmless_nil
        · next notAmpersand notLess notGreater notForbidden =>
          -- Any other character stands for itself, and it is no ampersand.
          simp only [beq_iff_eq] at notAmpersand notLess notGreater
          refine ⟨?_, ?_, ?_⟩
          · exact ⟨fun member => notLess (List.mem_singleton.mp member).symm,
              fun member => notGreater (List.mem_singleton.mp member).symm⟩
          · intro other member
            rw [List.mem_singleton.mp member]
            simpa using notForbidden
          · intro front back split
            have member : '&' ∈ [c] := by
              rw [split]
              exact List.mem_append_right front (.head _)
            exact absurd (List.mem_singleton.mp member).symm notAmpersand

/-- Whatever is encoded is harmless. -/
theorem harmless_encode (text : String) : Harmless (encode text).toList := by
  rw [toList_encode]
  induction text.toList with
  | nil => exact harmless_nil
  | cons c rest ih =>
    rw [List.flatMap_cons]
    exact (harmless_encodeChar c).append ih

/-! ## Reading back -/

/-- Read the three references back, from the left to the right. -/
def decode : List Char → List Char
  | '&' :: 'a' :: 'm' :: 'p' :: ';' :: rest => '&' :: decode rest
  | '&' :: 'l' :: 't' :: ';' :: rest => '<' :: decode rest
  | '&' :: 'g' :: 't' :: ';' :: rest => '>' :: decode rest
  | c :: rest => c :: decode rest
  | [] => []

theorem decode_cons_of_ne {c : Char} (plain : c ≠ '&') (rest : List Char) :
    decode (c :: rest) = c :: decode rest := by
  rw [decode]
  all_goals
    intros
    exact plain ‹_›

/-- What one character was encoded as is read as that character, whatever follows. -/
theorem decode_encodeChar_append (c : Char) (rest : List Char) :
    decode (encodeChar c ++ rest) = [c].filter (!isForbidden ·) ++ decode rest := by
  unfold encodeChar
  split
  · next ampersand =>
    rw [eq_of_beq ampersand]
    rfl
  · next ampersand =>
    split
    · next less =>
      rw [eq_of_beq less]
      rfl
    · split
      · next greater =>
        rw [eq_of_beq greater]
        rfl
      · split
        · next forbidden => simp [forbidden]
        · next allowed =>
          have plain : c ≠ '&' := fun same => ampersand (beq_of_eq same)
          rw [List.singleton_append, decode_cons_of_ne plain]
          simp [allowed]

/-- An encoded text is read back whole, but for the characters that are not allowed. -/
theorem decode_encode (text : String) :
    decode (encode text).toList = text.toList.filter (!isForbidden ·) := by
  rw [toList_encode]
  induction text.toList with
  | nil => rfl
  | cons c rest ih =>
    rw [List.flatMap_cons, decode_encodeChar_append, ih, ← List.filter_append,
      List.singleton_append]

/-- Parts of a text are encoded each for itself. -/
theorem encode_append (text further : String) :
    encode (text ++ further) = encode text ++ encode further := by
  simp only [encode_eq, encodedCopy, String.toList_append, List.flatMap_append,
    String.ofList_append]

/-- The control characters that are allowed. -/
theorem isForbidden_eq_false_iff {c : Char} :
    isForbidden c = false ↔ (c.toNat < 32 → c = '\t' ∨ c = '\n' ∨ c = '\r') := by
  by_cases small : c.toNat < 32
  · simp [isForbidden, small, Classical.or_iff_not_imp_left]
  · simp [isForbidden, small]

/-- Encoding by either way gives one text, part by part.  It begins no tag and names no
entity but the three references, it holds no forbidden character, and it is read back as
what it was made from without such characters. -/
theorem encoding_is_faithful (text further : String) :
    encode text = encodedCopy text ∧
      encode (text ++ further) = encode text ++ encode further ∧
      '<' ∉ (encode text).toList ∧ '>' ∉ (encode text).toList ∧
      (∀ c ∈ (encode text).toList, c.toNat < 32 → c = '\t' ∨ c = '\n' ∨ c = '\r') ∧
      (∀ front back, (encode text).toList = front ++ '&' :: back →
        ∃ reference ∈ references, reference <+: back) ∧
      decode (encode text).toList = text.toList.filter (!isForbidden ·) := by
  have harmless := harmless_encode text
  refine ⟨encode_eq text, encode_append text further, harmless.tags.1, harmless.tags.2, ?_,
    harmless.referring, decode_encode text⟩
  intro c member
  exact isForbidden_eq_false_iff.mp (harmless.allowed c member)

/-- A reference in the text stays a reference to itself. -/
example : decode (encode "a&lt;\x07b").toList = "a&lt;b".toList := by decide +kernel

end Stencil.Text.Xml
