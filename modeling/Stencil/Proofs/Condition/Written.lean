import Stencil.Condition.Reader
import Stencil.Proofs.Numeric.Digits
import Stencil.Proofs.Numeric.Representable
import Stencil.Proofs.Text.Runs

namespace Stencil

open Numeric (Binary64 integerText)

/-!
# Conditions as they are written

A condition that was read compares a path of names with a text, an integer or a
finite number.  Its text shows the path, the comparison and the bound, and each of
them can be told from what follows, unless a text bound holds an apostrophe where
the bound could as well have ended: before a comma or a closing bracket.
-/

namespace Value

/-- The characters of a numeral. -/
def isNumeralPart (c : Char) : Bool :=
  c.isDigit || c == '-' || c == '+' || c == '.' || c == 'e'

/-- A bound that was written down. -/
inductive Written : Value → Prop where
  | text (s : String) : Written (.string s)
  | integer (n : Int) : Written (.number (.integer n))
  | real (negative : Bool) (units : Nat) (representable : Binary64.Representable units) :
      Written (.number (.real (.finite negative units)))

theorem written_ofWord (word : List Char) : Written (ofWord word) := by
  unfold ofWord
  split
  · exact .integer _
  · split
    · next number read =>
      cases number with
      | nan => exact .text _
      | infinite negative => exact .text _
      | finite negative units =>
        exact .real negative units (Binary64.representable_of_readBinary64? read)
    · exact .text _

/-! ## Numerals -/

theorem isNumeralPart_of_mem_toDigits {n : Nat} {c : Char} (member : c ∈ Nat.toDigits 10 n) :
    isNumeralPart c = true := by
  simp [isNumeralPart, Nat.isDigit_of_mem_toDigits (by decide) (by decide) member]

theorem isNumeralPart_of_mem_integerText {n : Int} {c : Char} (member : c ∈ integerText n) :
    isNumeralPart c = true := by
  unfold integerText at member
  split at member
  · rcases List.mem_cons.mp member with rfl | digit
    · rfl
    · exact isNumeralPart_of_mem_toDigits digit
  · exact isNumeralPart_of_mem_toDigits member

theorem isNumeralPart_of_mem_positionalText {d : Numeric.Decimal} {c : Char}
    (digits : ∀ c ∈ d.digits, isNumeralPart c = true)
    (member : c ∈ Numeric.positionalText ['.', '0'] d) : isNumeralPart c = true := by
  have zeros : ∀ {n : Nat}, c ∈ List.replicate n '0' → isNumeralPart c = true := by
    intro n member
    rw [List.eq_of_mem_replicate member]
    rfl
  unfold Numeric.positionalText at member
  split at member
  · simp only [List.mem_append, List.mem_cons, List.not_mem_nil, or_false] at member
    rcases member with ((rfl | rfl) | zero) | digit
    · rfl
    · rfl
    · exact zeros zero
    · exact digits c digit
  · simp only at member
    split at member
    · simp only [List.mem_append, List.mem_cons, List.not_mem_nil, or_false] at member
      rcases member with (digit | zero) | rfl | rfl
      · exact digits c digit
      · exact zeros zero
      · rfl
      · rfl
    · simp only [List.mem_append, List.mem_cons] at member
      rcases member with digit | rfl | digit
      · exact digits c (List.mem_of_mem_take digit)
      · rfl
      · exact digits c (List.mem_of_mem_drop digit)

theorem isNumeralPart_of_mem_exponentText {d : Numeric.Decimal} {c : Char}
    (digits : ∀ c ∈ d.digits, isNumeralPart c = true) (member : c ∈ Numeric.exponentText d) :
    isNumeralPart c = true := by
  unfold Numeric.exponentText at member
  simp only [List.mem_append, List.mem_cons] at member
  rcases member with (digit | fraction) | rfl | sign | exponent
  · exact digits c (List.mem_of_mem_take digit)
  · split at fraction
    · cases fraction
    · rcases List.mem_cons.mp fraction with rfl | digit
      · rfl
      · exact digits c (List.mem_of_mem_drop digit)
  · rfl
  · split at sign
    · cases sign
    · rw [List.mem_singleton] at sign
      rw [sign]
      rfl
  · exact isNumeralPart_of_mem_integerText exponent

theorem isNumeralPart_of_mem_magnitudeText {units : Nat} {c : Char}
    (member : c ∈ jsonStyle.magnitudeText units) : isNumeralPart c = true := by
  have digits : ∀ c ∈ (Numeric.shortest jsonStyle.ties units).digits,
      isNumeralPart c = true := by
    intro c member
    simp [isNumeralPart, Numeric.isDigit_of_mem_significantDigits member]
  rcases Numeric.magnitudeText_eq_or jsonStyle units with plain | scientific
  · rw [plain] at member
    exact isNumeralPart_of_mem_positionalText digits member
  · rw [scientific] at member
    exact isNumeralPart_of_mem_exponentText digits member

theorem isNumeralPart_of_mem_jsonStyle {negative : Bool} {units : Nat} {c : Char}
    (member : c ∈ jsonStyle.text (.finite negative units)) : isNumeralPart c = true := by
  have sign : c ∈ (if negative then ['-'] else []) → isNumeralPart c = true := by
    intro member
    cases negative with
    | true =>
      rw [List.mem_singleton.mp member]
      rfl
    | false => cases member
  cases units with
  | zero =>
    unfold Numeric.Style.text at member
    cases negative <;>
      simp only [jsonStyle, List.mem_append, List.mem_cons, List.not_mem_nil, or_false,
        Bool.and_true, if_true, Bool.false_eq_true, if_false, false_or] at member
    · rcases member with rfl | rfl | rfl <;> rfl
    · rcases member with rfl | rfl | rfl | rfl <;> rfl
  | succ units =>
    unfold Numeric.Style.text at member
    rcases List.mem_append.mp member with signed | magnitude
    · exact sign signed
    · exact isNumeralPart_of_mem_magnitudeText magnitude

/-- Written bounds that are no texts are numerals. -/
theorem Written.numeral {value : Value} (written : value.Written) :
    (∃ s, value = .string s) ∨ ∀ c ∈ value.json.toList, isNumeralPart c = true := by
  cases written with
  | text s => exact .inl ⟨s, rfl⟩
  | integer n =>
    refine .inr fun c member => ?_
    simp only [json, Number.json, String.toList_ofList] at member
    exact isNumeralPart_of_mem_integerText member
  | real negative units =>
    refine .inr fun c member => ?_
    simp only [json, Number.json, String.toList_ofList] at member
    exact isNumeralPart_of_mem_jsonStyle member

end Value

namespace Condition

/-- Whether a text between apostrophes could be taken to end before its end. -/
def endsEarly : List Char → Bool
  | [] => false
  | c :: rest =>
    (c == '\'' && (rest.head? == some ',' || rest.head? == some ']')) || endsEarly rest

/-- A text bound can be told from what follows it. -/
def Plain (condition : Condition) : Prop :=
  ∀ s, condition.bound = .string s → endsEarly s.toList = false

/-- A text without apostrophes does not seem to end early. -/
theorem endsEarly_eq_false {cs : List Char} (none : '\'' ∉ cs) : endsEarly cs = false := by
  induction cs with
  | nil => rfl
  | cons c rest ih =>
    have other : (c == '\'') = false := by
      rw [beq_eq_false_iff_ne]
      rintro rfl
      exact none (.head _)
    unfold endsEarly
    rw [other, Bool.false_and, Bool.false_or]
    exact ih fun member => none (.tail _ member)

theorem plain_of_no_apostrophe {condition : Condition}
    (none : ∀ s, condition.bound = .string s → '\'' ∉ s.toList) : condition.Plain :=
  fun s bound => endsEarly_eq_false (none s bound)

instance (condition : Condition) : Decidable condition.Plain :=
  match shown : condition.bound with
  | .string s => decidable_of_iff (endsEarly s.toList = false)
      ⟨fun plain t bound => Value.string.inj (shown.symm.trans bound) ▸ plain,
        fun plain => plain s shown⟩
  | .null | .bool _ | .number _ | .array _ | .object _ =>
    isTrue fun s bound => by simp [shown] at bound

/-- A condition of a search that was written down: it compares an attribute, or
an attribute of an attribute. -/
structure Written (condition : Condition) : Prop where
  operand : ∃ names : List (List Char), names ≠ [] ∧ (∀ name ∈ names, isName name = true) ∧
    condition.operand = .field (names.map String.ofList)
  bound : condition.bound.Written

theorem splitAll_ne_nil (separator : Char) (cs : List Char) : Text.splitAll separator cs ≠ [] := by
  cases cs with
  | nil => simp [Text.splitAll]
  | cons c rest =>
    unfold Text.splitAll
    split
    · simp
    · split <;> simp

theorem written_readBound (text : List Char) : (readBound text).Written := by
  unfold readBound
  split
  · exact .text _
  · split
    · exact .text _
    · exact Value.written_ofWord text

theorem written_bound_of_read? {iterator : Option String} {text : List Char}
    {condition : Condition} (read : read? iterator text = some condition) :
    condition.bound.Written := by
  unfold read? at read
  simp only at read
  split at read
  · split at read
    · split at read
      · cases read
      · cases read
        exact written_readBound _
    · cases read
  · cases read

/-- The conditions that are read outside of repetitions are written ones. -/
theorem written_of_read? {text : List Char} {condition : Condition}
    (read : read? none text = some condition) : condition.Written := by
  unfold read? at read
  simp only at read
  split at read
  · next named =>
    split at read
    · split at read
      · cases read
      · rw [if_neg (by simp)] at read
        cases read
        exact ⟨⟨_, splitAll_ne_nil _ _, List.all_eq_true.mp named, rfl⟩, written_readBound _⟩
    · cases read
  · cases read

/-! ## Texts -/

/-- The characters of a path of attributes. -/
def isPathPart (c : Char) : Bool := isNamePart c || c == '.'

theorem isNamePart_of_isName {name : List Char} (named : isName name = true) :
    ∀ c ∈ name, isNamePart c = true := by
  intro c member
  cases name with
  | nil => cases member
  | cons first rest =>
    obtain ⟨start, others⟩ := Bool.and_eq_true_iff.mp named
    rcases List.mem_cons.mp member with rfl | later
    · simp [isNamePart, start]
    · exact List.all_eq_true.mp others c later

/-- What is between separators or in one. -/
theorem mem_intercalate {α : Type} {separator : List α} {parts : List (List α)} {a : α}
    (member : a ∈ separator.intercalate parts) : a ∈ separator ∨ ∃ part ∈ parts, a ∈ part := by
  induction parts with
  | nil => cases member
  | cons part more ih =>
    cases more with
    | nil =>
      rw [List.intercalate_singleton] at member
      exact .inr ⟨part, .head _, member⟩
    | cons next rest =>
      rw [List.intercalate_cons_cons, List.append_assoc] at member
      rcases List.mem_append.mp member with first | behind
      · exact .inr ⟨part, .head _, first⟩
      · rcases List.mem_append.mp behind with between | later
        · exact .inl between
        · rcases ih later with between | ⟨other, listed, inside⟩
          · exact .inl between
          · exact .inr ⟨other, .tail _ listed, inside⟩

theorem toList_text_field (names : List (List Char)) :
    (Operand.text (.field (names.map String.ofList))).toList = ['.'].intercalate names := by
  simp [Operand.text, String.toList_intercalate, Function.comp_def]

theorem isPathPart_of_mem_text {names : List (List Char)}
    (named : ∀ name ∈ names, isName name = true) {c : Char}
    (member : c ∈ (Operand.text (.field (names.map String.ofList))).toList) :
    isPathPart c = true := by
  rw [toList_text_field] at member
  rcases mem_intercalate member with point | ⟨name, listed, inside⟩
  · rw [List.mem_singleton.mp point]
    rfl
  · simp [isPathPart, isNamePart_of_isName (named name listed) c inside]

/-! ## What a text shows -/

/-- A condition is followed by a comma or by the end of its group. -/
def Follows (behind : List Char) : Prop :=
  ∃ c rest, behind = c :: rest ∧ (c = ',' ∨ c = ']')

/-- The text of a bound. -/
def boundText (bound : Value) : List Char :=
  match bound with
  | .string s => '\'' :: (s.toList ++ ['\''])
  | other => other.json.toList

theorem toList_text (condition : Condition) :
    condition.text.toList = condition.operand.text.toList ++ condition.comparison.symbol.toList ++
      boundText condition.bound := by
  unfold text boundText
  cases condition.bound <;> simp

/-- A quoted text ends at the first apostrophe before a comma or a bracket. -/
theorem quote_split {front other back more : List Char} (plain : endsEarly front = false)
    (otherPlain : endsEarly other = false) (follows : Follows back) (alsoFollows : Follows more)
    (same : front ++ '\'' :: back = other ++ '\'' :: more) : front = other ∧ back = more := by
  -- One text cannot end inside the other: the apostrophe there would end that one.
  have inside : ∀ {d : Char} {rest back more : List Char}, endsEarly (d :: rest) = false →
      Follows back → '\'' :: back = d :: rest ++ '\'' :: more → False := by
    intro d rest back more plain follows same
    obtain ⟨c, behind, rfl, ends⟩ := follows
    obtain rfl : '\'' = d := List.head_eq_of_cons_eq same
    have tails := List.tail_eq_of_cons_eq same
    cases rest with
    | nil =>
      have first : c = '\'' := List.head_eq_of_cons_eq tails
      rw [first] at ends
      rcases ends with impossible | impossible <;> cases impossible
    | cons e others =>
      have first : c = e := List.head_eq_of_cons_eq tails
      subst first
      rcases ends with rfl | rfl <;> simp [endsEarly] at plain
  induction front generalizing other with
  | nil =>
    cases other with
    | nil => exact ⟨rfl, List.tail_eq_of_cons_eq same⟩
    | cons d rest => exact (inside otherPlain follows same).elim
  | cons c rest ih =>
    cases other with
    | nil => exact (inside plain alsoFollows same.symm).elim
    | cons d others =>
      obtain rfl : c = d := List.head_eq_of_cons_eq same
      obtain ⟨rfl, rfl⟩ := ih (Bool.or_eq_false_iff.mp plain).2
        (Bool.or_eq_false_iff.mp otherPlain).2 (List.tail_eq_of_cons_eq same)
      exact ⟨rfl, rfl⟩

theorem Follows.stopsAt_numeral {behind : List Char} (follows : Follows behind) :
    Text.StopsAt (fun c => Value.isNumeralPart c = true) behind := by
  obtain ⟨c, rest, rfl, ends⟩ := follows
  refine Text.stopsAt_cons ?_
  rcases ends with rfl | rfl <;> decide

/-- A bound that is no text is shown as a numeral. -/
theorem numeral_boundText {bound : Value} (written : bound.Written) :
    (∃ s, bound = .string s) ∨ ∀ c ∈ boundText bound, Value.isNumeralPart c = true := by
  rcases written.numeral with text | numeral
  · exact .inl text
  · cases written with
    | text s => exact .inl ⟨s, rfl⟩
    | integer n => exact .inr numeral
    | real negative units representable => exact .inr numeral

/-- Where the text of a bound ends. -/
theorem boundText_split {bound other : Value} {back more : List Char} (written : bound.Written)
    (otherWritten : other.Written) (plain : ∀ s, bound = .string s → endsEarly s.toList = false)
    (otherPlain : ∀ s, other = .string s → endsEarly s.toList = false) (follows : Follows back)
    (alsoFollows : Follows more) (same : boundText bound ++ back = boundText other ++ more) :
    boundText bound = boundText other ∧ back = more := by
  -- A numeral never begins with an apostrophe, nor does what follows a bound.
  have unlike : ∀ {numeral : List Char} {s : String} {back more : List Char},
      (∀ c ∈ numeral, Value.isNumeralPart c = true) → Follows back →
      numeral ++ back = boundText (.string s) ++ more → False := by
    intro numeral s back more parts follows same
    cases numeral with
    | nil =>
      obtain ⟨c, rest, rfl, ends⟩ := follows
      have first : c = '\'' := List.head_eq_of_cons_eq same
      rw [first] at ends
      rcases ends with impossible | impossible <;> cases impossible
    | cons c rest =>
      have first : c = '\'' := List.head_eq_of_cons_eq same
      have part := parts c (.head _)
      rw [first] at part
      revert part
      decide
  rcases numeral_boundText written with ⟨s, rfl⟩ | numeral
  · rcases numeral_boundText otherWritten with ⟨t, rfl⟩ | otherNumeral
    · have inner : s.toList ++ '\'' :: back = t.toList ++ '\'' :: more := by
        simpa [boundText] using same
      obtain ⟨texts, tails⟩ :=
        quote_split (plain s rfl) (otherPlain t rfl) follows alsoFollows inner
      exact ⟨by rw [String.toList_inj.mp texts], tails⟩
    · exact (unlike otherNumeral alsoFollows same.symm).elim
  · rcases numeral_boundText otherWritten with ⟨t, rfl⟩ | otherNumeral
    · exact (unlike numeral follows same).elim
    · exact Text.run_split numeral otherNumeral follows.stopsAt_numeral
        alsoFollows.stopsAt_numeral same

theorem symbol_split {comparison other : Comparison} {back more : List Char}
    (same : comparison.symbol.toList ++ back = other.symbol.toList ++ more) :
    comparison = other ∧ back = more := by
  cases comparison <;> cases other <;> simp_all [Comparison.symbol]

theorem stopsAt_symbol (comparison : Comparison) (behind : List Char) :
    Text.StopsAt (fun c => isPathPart c = true) (comparison.symbol.toList ++ behind) := by
  cases comparison <;> exact Text.stopsAt_cons (by decide)

/-- What can be told of a condition from its text, whatever follows. -/
structure Alike (left right : Condition) : Prop where
  operand : left.operand.text = right.operand.text
  comparison : left.comparison = right.comparison
  bound : boundText left.bound = boundText right.bound

theorem text_split {left right : Condition} {back more : List Char} (written : left.Written)
    (otherWritten : right.Written) (plain : left.Plain) (otherPlain : right.Plain)
    (follows : Follows back) (alsoFollows : Follows more)
    (same : left.text.toList ++ back = right.text.toList ++ more) :
    Alike left right ∧ back = more := by
  obtain ⟨names, -, named, operand⟩ := written.operand
  obtain ⟨otherNames, -, otherNamed, otherOperand⟩ := otherWritten.operand
  rw [toList_text, toList_text] at same
  simp only [List.append_assoc] at same
  have parts : ∀ c ∈ left.operand.text.toList, isPathPart c = true := by
    rw [operand]
    exact fun c member => isPathPart_of_mem_text named member
  have otherParts : ∀ c ∈ right.operand.text.toList, isPathPart c = true := by
    rw [otherOperand]
    exact fun c member => isPathPart_of_mem_text otherNamed member
  obtain ⟨operands, same⟩ := Text.run_split parts otherParts (stopsAt_symbol _ _)
    (stopsAt_symbol _ _) same
  obtain ⟨comparisons, same⟩ := symbol_split same
  obtain ⟨bounds, tails⟩ := boundText_split written.bound otherWritten.bound plain otherPlain
    follows alsoFollows same
  exact ⟨⟨String.toList_inj.mp operands, comparisons, bounds⟩, tails⟩

/-! ## Lists of conditions -/

/-- Conditions of one search, all written and plain. -/
structure Legible (conditions : List Condition) : Prop where
  written : ∀ condition ∈ conditions, condition.Written
  plain : ∀ condition ∈ conditions, condition.Plain

theorem Legible.tail {condition : Condition} {more : List Condition}
    (legible : Legible (condition :: more)) : Legible more :=
  ⟨fun other member => legible.written other (.tail _ member),
    fun other member => legible.plain other (.tail _ member)⟩

/-- What follows the first of some conditions in a group. -/
def listTail (more : List Condition) (behind : List Char) : List Char :=
  if more.isEmpty then ']' :: behind else ',' :: ((listText more).toList ++ ']' :: behind)

theorem toList_listText_cons (condition : Condition) (more : List Condition)
    (behind : List Char) :
    (listText (condition :: more)).toList ++ ']' :: behind =
      condition.text.toList ++ listTail more behind := by
  cases more with
  | nil => simp [listText, listTail]
  | cons next rest => simp [listText, listTail, String.intercalate_cons_cons]

theorem follows_listTail (more : List Condition) (behind : List Char) :
    Follows (listTail more behind) := by
  unfold listTail
  split
  · exact ⟨']', _, rfl, .inr rfl⟩
  · exact ⟨',', _, rfl, .inl rfl⟩

/-- Where the text of a list of conditions ends, and what it shows of each of
them. -/
theorem listText_split {left right : List Condition} {back more : List Char}
    (nonempty : left ≠ []) (alsoNonempty : right ≠ []) (legible : Legible left)
    (otherLegible : Legible right)
    (same : (listText left).toList ++ ']' :: back = (listText right).toList ++ ']' :: more) :
    List.Forall₂ Alike left right ∧ back = more := by
  induction left generalizing right with
  | nil => exact absurd rfl nonempty
  | cons condition rest ih =>
    cases right with
    | nil => exact absurd rfl alsoNonempty
    | cons other others =>
      rw [toList_listText_cons, toList_listText_cons] at same
      obtain ⟨alike, tails⟩ := text_split (legible.written condition (.head _))
        (otherLegible.written other (.head _)) (legible.plain condition (.head _))
        (otherLegible.plain other (.head _)) (follows_listTail _ _) (follows_listTail _ _) same
      unfold listTail at tails
      cases rest with
      | nil =>
        cases others with
        | nil => exact ⟨.cons alike .nil, List.tail_eq_of_cons_eq tails⟩
        | cons _ _ => simp at tails
      | cons second rest =>
        cases others with
        | nil => simp at tails
        | cons secondOther others =>
          have inner : (listText (second :: rest)).toList ++ ']' :: back =
              (listText (secondOther :: others)).toList ++ ']' :: more := by
            simpa using tails
          obtain ⟨alikes, behind⟩ := ih (by simp) (by simp) legible.tail otherLegible.tail inner
          exact ⟨.cons alike alikes, behind⟩

/-- Some conditions do not end in an opening bracket, whatever stands before them. -/
theorem getLast?_listText_ne {conditions : List Condition} (nonempty : conditions ≠ [])
    (written : ∀ condition ∈ conditions, condition.Written) (front : List Char) :
    (front ++ (listText conditions).toList).getLast? ≠ some '[' := by
  induction conditions generalizing front with
  | nil => exact absurd rfl nonempty
  | cons condition more ih =>
    cases more with
    | cons next rest =>
      have split : (listText (condition :: next :: rest)).toList =
          condition.text.toList ++ [','] ++ (listText (next :: rest)).toList := by
        simp [listText, String.intercalate_cons_cons]
      rw [split, ← List.append_assoc]
      exact ih (List.cons_ne_nil _ _) (fun other member => written other (.tail _ member)) _
    | nil =>
      have one : (listText [condition]).toList = condition.text.toList := by simp [listText]
      rw [one, toList_text, ← List.append_assoc, List.getLast?_append]
      rcases numeral_boundText (written condition (.head _)).bound with ⟨s, text⟩ | numeral
      · have quote : (boundText condition.bound).getLast? = some '\'' := by
          rw [text, boundText, ← List.cons_append, List.getLast?_concat]
        rw [quote]
        exact fun impossible => by cases impossible
      · cases last : (boundText condition.bound).getLast? with
        | some c =>
          rintro same
          cases Option.some.inj same
          exact absurd (numeral '[' (List.mem_of_getLast? last)) (by decide)
        | none =>
          rw [Option.none_or, ← List.append_assoc, List.getLast?_append]
          cases condition.comparison <;> exact fun impossible => by cases impossible

/-- Conditions alike have the same text. -/
theorem listText_eq_of_alike {left right : List Condition} (alike : List.Forall₂ Alike left right) :
    listText left = listText right := by
  unfold listText
  congr 1
  induction alike with
  | nil => rfl
  | cons first _ ih =>
    rw [List.map_cons, List.map_cons, ih]
    congr 1
    rw [← String.toList_inj, toList_text, toList_text, first.operand, first.comparison, first.bound]

end Condition

end Stencil
