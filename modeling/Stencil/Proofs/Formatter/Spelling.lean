import Stencil.Formatter.Chain
import Stencil.Proofs.Marker.Written
import Stencil.Proofs.Text.Trimming

namespace Stencil.Formatter

open Text (Lexeme isBlank isQuote Trimmed)
open Text.Lexeme (bareOf write)

/-!
# Calls as they are spelled

A call is spelled as its name, followed by its arguments in parentheses if there are any,
with blanks around the name, the commas and the parentheses.  An argument is spelled as it
is shown elsewhere, except that a text with an apostrophe stands between double quotes.
Not all arguments can be spelled so: there is no way to write a text that holds both kinds
of quotes, or a field whose name begins with a point.
-/

/-! ## Arguments -/

/-- An argument as it is written in a marker. -/
def Argument.written : Argument → List Char
  | .literal (.string s) =>
    if s.toList.contains '\'' then '"' :: (s.toList ++ ['"'])
    else (Argument.literal (.string s)).text.toList
  | other => other.text.toList

/-- The characters of the names of fields. -/
def isFieldPart (c : Char) : Bool :=
  !isBlank c && !isQuote c && !isTypographicQuote c && !([',', ':', '(', ')'].contains c)

theorem isBlank_of_isFieldPart {c : Char} (part : isFieldPart c = true) : isBlank c = false := by
  simp only [isFieldPart, Bool.and_eq_true, Bool.not_eq_true'] at part
  exact part.1.1.1

theorem isTypographicQuote_of_isFieldPart {c : Char} (part : isFieldPart c = true) :
    isTypographicQuote c = false := by
  simp only [isFieldPart, Bool.and_eq_true, Bool.not_eq_true'] at part
  exact part.1.2

/-- The quotes that are read as apostrophes. -/
def typographicQuotes : List Char := ['\u2018', '\u2019', '\u201a', '\u201b']

theorem isTypographicQuote_of_kind {kind : Char → Bool} {c : Char} (part : kind c = true)
    (foreign : Text.excludes kind typographicQuotes = true) : isTypographicQuote c = false := by
  apply Bool.eq_false_iff.mpr
  intro quote
  have listed : c ∈ typographicQuotes := by
    simpa [isTypographicQuote, typographicQuotes, or_assoc] using quote
  rw [Text.eq_false_of_excludes foreign c listed] at part
  cases part

/-- A kind of visible characters that are neither quotes nor marks of a call. -/
theorem isFieldPart_of_kind {kind : Char → Bool} {c : Char} (part : kind c = true)
    (visible : isBlank c = false) (quotes : kind '\'' = false ∧ kind '"' = false)
    (typographic : Text.excludes kind typographicQuotes = true)
    (marks : Text.excludes kind [',', ':', '(', ')'] = true) : isFieldPart c = true := by
  have foreign : [',', ':', '(', ')'].contains c = false := by
    apply Bool.eq_false_iff.mpr
    intro listed
    rw [Text.eq_false_of_excludes marks c (List.contains_iff_mem.mp listed)] at part
    cases part
  simp only [isFieldPart, visible, Text.isQuote_of_kind part quotes.1 quotes.2,
    isTypographicQuote_of_kind part typographic, foreign, Bool.not_false, Bool.and_self]

/-- The characters of integers are among them. -/
theorem isFieldPart_of_isItemPart {c : Char} (part : Marker.isItemPart c = true) :
    isFieldPart c = true :=
  isFieldPart_of_kind part (Marker.isBlank_of_isItemPart part) (by decide) rfl rfl

/-- No letter or digit is a blank: beyond ASCII the tables of the two have no range in common. -/
theorem isBlank_of_isAlphanumeric {c : Char} (part : Text.isAlphanumeric c = true) :
    isBlank c = false := by
  have apart : ∀ blank ∈ Text.blankRanges, ∀ range ∈ Text.alphanumericRanges,
      blank.2 < range.1 ∨ range.2 < blank.1 := by decide +kernel
  unfold Text.isAlphanumeric at part
  split at part
  · have name : Condition.isNamePart c = true := by
      simp only [Condition.isNamePart, Condition.isNameStart, Bool.or_eq_true]
      exact (Bool.or_eq_true_iff.mp part).imp_left .inl
    exact Marker.isBlank_of_isNamePart name
  · next beyond =>
    simp only [Text.inRanges, List.any_eq_true, Bool.and_eq_true, decide_eq_true_eq] at part
    rcases part with ⟨range, listed, within⟩
    rw [isBlank, if_neg beyond]
    apply Bool.eq_false_iff.mpr
    intro blank
    simp only [Text.inRanges, List.any_eq_true, Bool.and_eq_true, decide_eq_true_eq] at blank
    rcases blank with ⟨blank, given, among⟩
    have distinct := apart blank given range listed
    omega

theorem isFieldPart_of_isAlphanumeric {c : Char} (part : Text.isAlphanumeric c = true) :
    isFieldPart c = true :=
  isFieldPart_of_kind part (isBlank_of_isAlphanumeric part) (by decide) (by decide +kernel) rfl

/-- The characters of the names of formatters are among them. -/
theorem isFieldPart_of_isFormatterName {name : List Char} (named : isFormatterName name = true) :
    ∀ c ∈ name, isFieldPart c = true := by
  intro c member
  simp only [isFormatterName, Bool.and_eq_true, List.all_eq_true, Bool.or_eq_true,
    beq_iff_eq] at named
  rcases named.2 c member with part | rfl
  · exact isFieldPart_of_isAlphanumeric part
  · rfl

/-- The arguments that can be written: integers of 64 bits, texts with at most one kind of
quotes and no typographic ones, and fields. -/
inductive Argument.Writable : Argument → Prop
  | integer (n : Int) (fits : Numeric.integerLeast ≤ n ∧ n ≤ Numeric.integerGreatest) :
      Writable (.literal (.number (.integer n)))
  | text (s : String) (one : '\'' ∈ s.toList → '"' ∉ s.toList)
      (straight : ∀ c ∈ s.toList, isTypographicQuote c = false) : Writable (.literal (.string s))
  | field (up : Nat) (name : String) (nonempty : name.toList ≠ [])
      (parts : ∀ c ∈ name.toList, isFieldPart c = true) (leads : name.toList.head? ≠ some '.') :
      Writable (.field up name)

/-- A call with a name of letters, digits and underscores, all of whose arguments can be
written. -/
structure Call.Writable (call : Call) : Prop where
  named : isFormatterName call.name.toList = true
  arguments : ∀ argument ∈ call.arguments, argument.Writable

/-! ## Blanks -/

/-- Nothing but blanks. -/
def Blanks (cs : List Char) : Prop := ∀ c ∈ cs, isBlank c = true

instance (cs : List Char) : Decidable (Blanks cs) :=
  decidable_of_iff (cs.all isBlank = true) List.all_eq_true

/-- A text with blanks around it. -/
inductive Spread (cs : List Char) : List Char → Prop
  | intro {front back : List Char} (before : Blanks front) (after : Blanks back) :
      Spread cs (front ++ cs ++ back)

/-- Arguments with commas between them. -/
inductive Listed : List Argument → List Char → Prop
  | none {inner : List Char} (blank : Blanks inner) : Listed [] inner
  | some {arguments : List Argument} {parts : List (List Char)} (nonempty : arguments ≠ [])
      (each : List.Forall₂ (fun argument part => Spread argument.written part) arguments parts) :
      Listed arguments ([','].intercalate parts)

/-- A call by its name alone, or with arguments. -/
inductive Spelled (call : Call) : List Char → Prop
  | alone {text : List Char} (none : call.arguments = []) (name : Spread call.name.toList text) :
      Spelled call text
  | applied {front inner back : List Char} (name : Spread call.name.toList front)
      (arguments : Listed call.arguments inner) (behind : Blanks back) :
      Spelled call (front ++ '(' :: (inner ++ ')' :: back))

end Stencil.Formatter
