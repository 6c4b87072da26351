import Stencil.Proofs.Condition.Reading
import Stencil.Proofs.Marker.Reading
import Stencil.Proofs.Marker.Written
import Stencil.Proofs.Numeric.Digits

namespace Stencil.Marker

open Text (Lexeme Brackets Scans Passes isBlank isQuote)
open Text.Lexeme (bareOf write)

/-!
# Paths are read as they are written

The readers of a path look at it again and again, each with a notion of its own of what is
between quotes or brackets: to cut off the formatters, to remove the blanks, to cut it into
segments, to find the end of a group and to cut it into items.  On what is written as a
path they agree, whatever the texts between quotes hold.  So each form is read as what it
stands for.
-/

/-! ## Bounds -/

/-- An integer is read as it is written. -/
theorem readInteger?_integerText {n : Int}
    (fits : Numeric.integerLeast ≤ n ∧ n ≤ Numeric.integerGreatest) :
    Numeric.readInteger? (Numeric.integerText n) = some n := by
  have digits := Numeric.isDigits_toDigits n.natAbs
  have value := Numeric.digitsValue_toDigits n.natAbs
  by_cases negative : n < 0
  · have same : -(n.natAbs : Int) = n := by omega
    simp only [Numeric.integerText, negative, if_true, Numeric.readInteger?, Numeric.splitSign,
      digits, value, same, fits, and_self]
  · have same : (n.natAbs : Int) = n := by omega
    have unsigned : Numeric.splitSign (Nat.toDigits 10 n.natAbs) =
        (false, Nat.toDigits 10 n.natAbs) := by
      cases shown : Nat.toDigits 10 n.natAbs with
      | nil => rfl
      | cons first rest =>
        have digit : first.isDigit = true :=
          Numeric.isDigit_toDigits (n := n.natAbs) (by rw [shown]; exact .head _)
        have minus : first ≠ '-' := by
          rintro rfl
          cases digit
        have plus : first ≠ '+' := by
          rintro rfl
          cases digit
        unfold Numeric.splitSign
        split
        · next same => exact absurd (List.head_eq_of_cons_eq same) minus
        · next same => exact absurd (List.head_eq_of_cons_eq same) plus
        · rfl
    simp only [Numeric.integerText, negative, if_false, Numeric.readInteger?, unsigned, digits,
      value, same, fits, and_self, if_true, Bool.false_eq_true]

theorem integerText_eq_cons (n : Int) : ∃ first rest, Numeric.integerText n = first :: rest ∧
    isQuote first = false := by
  have nonempty : Numeric.integerText n ≠ [] := by
    unfold Numeric.integerText
    split
    · exact List.cons_ne_nil _ _
    · exact Nat.toDigits_ne_nil
  rcases List.exists_cons_of_ne_nil nonempty with ⟨first, rest, shown⟩
  have part : isItemPart first = true :=
    isItemPart_of_mem_integerText (n := n) (by rw [shown]; exact .head _)
  exact ⟨first, rest, shown, isQuote_of_isItemPart part⟩

/-- A bound is read as the value it stands for. -/
theorem BoundForm.readBound (form : BoundForm) :
    Condition.readBound (write form.lexemes) = form.value := by
  cases form with
  | integer n fits =>
    rcases integerText_eq_cons n with ⟨first, rest, shown, unquoted⟩
    show Condition.readBound (write (bareOf (Numeric.integerText n))) = _
    rw [Lexeme.write_bareOf, shown, Condition.readBound_word unquoted, ← shown]
    simp only [Value.ofWord, readInteger?_integerText fits, value]
  | text quote inner quotes closed line =>
    have written : write (BoundForm.text quote inner quotes closed line).lexemes =
        quote :: (inner ++ [quote]) := by
      simp [BoundForm.lexemes, Lexeme.chars]
    rw [written, Condition.readBound]
    simp only [isQuote, Bool.or_eq_true, beq_iff_eq] at quotes
    rcases quotes with rfl | rfl
    · simp only [Condition.unquote?_quoted, value]
    · simp only [Condition.unquote?_eq_none (show '"' ≠ '\'' by decide), Condition.unquote?_quoted,
        value]

/-- It is not empty, and on one line. -/
theorem BoundForm.write_ne_nil (form : BoundForm) : write form.lexemes ≠ [] := by
  cases form with
  | integer n fits =>
    rcases integerText_eq_cons n with ⟨first, rest, shown, -⟩
    simp [BoundForm.lexemes, shown]
  | text quote inner quotes closed line => simp [BoundForm.lexemes, Lexeme.chars]

theorem BoundForm.line_not_mem (form : BoundForm) : '\n' ∉ write form.lexemes := by
  cases form with
  | integer n fits =>
    intro member
    have part := isItemPart_of_mem_integerText (n := n) (c := '\n') (by
      simpa [BoundForm.lexemes] using member)
    cases part
  | text quote inner quotes closed line =>
    have other : '\n' ≠ quote := by
      rintro rfl
      cases quotes
    simp [BoundForm.lexemes, Lexeme.chars, other, line]

/-! ## Conditions -/

theorem ConditionForm.write_lexemes (form : ConditionForm) :
    write form.lexemes =
      form.path ++ (form.comparison.symbol.toList ++ write form.bound.lexemes) := by
  unfold ConditionForm.lexemes
  rw [Lexeme.write_append, Lexeme.write_bareOf, List.append_assoc]

/-- A condition is read as the one it stands for. -/
theorem ConditionForm.read? (form : ConditionForm) (iterator : Option String) :
    Condition.read? iterator (write form.lexemes) = some (form.condition iterator) := by
  have read := Condition.read?_written form.nonempty form.named form.comparison
    form.bound.write_ne_nil form.bound.line_not_mem iterator
  rw [form.bound.readBound] at read
  rw [form.write_lexemes]
  exact read

/-- A condition is no iterator. -/
theorem ConditionForm.readIterator? (form : ConditionForm) :
    Marker.readIterator? (write form.lexemes) = none := by
  rcases List.exists_cons_of_ne_nil form.nonempty with ⟨name, more, names⟩
  have named : ∀ c ∈ name, Condition.isNamePart c = true :=
    Condition.isNamePart_of_isName (form.named name (by rw [names]; exact .head _))
  rcases Condition.symbol_eq_cons form.comparison with ⟨first, rest, symbol, stops, differs⟩
  -- Behind its first name there is a point or the comparison.
  have begins : ∃ mark behind, write form.lexemes = name ++ mark :: behind ∧
      Condition.isNamePart mark = false ∧ mark ≠ '+' := by
    rw [form.write_lexemes, ConditionForm.path, names, symbol]
    cases more with
    | nil =>
      rw [List.intercalate_singleton]
      exact ⟨first, _, rfl, (Bool.or_eq_false_iff.mp stops).1, differs⟩
    | cons next others =>
      rw [List.intercalate_cons_cons, List.append_assoc, List.append_assoc]
      exact ⟨'.', _, rfl, rfl, by decide⟩
  rcases begins with ⟨mark, behind, written, ends, other⟩
  unfold Marker.readIterator?
  simp only [written, Text.takeWhile_of_stopsAt named (Text.stopsAt_of_eq_false ends),
    List.drop_left]
  split
  · split
    · next impossible => cases impossible
    · next same => exact absurd (List.head_eq_of_cons_eq same) other
    · rfl
  · rfl

/-! ## Items and groups -/

theorem readIterator?_of_isName {name : List Char} (named : Condition.isName name = true)
    (terminates : Bool) :
    Marker.readIterator? (name ++ if terminates then ['+', '1'] else []) =
      some (String.ofList name, terminates) := by
  have run := Condition.isNamePart_of_isName named
  have front : (name ++ if terminates then ['+', '1'] else []).takeWhile Condition.isNamePart =
      name := by
    cases terminates with
    | true => exact Text.takeWhile_of_stopsAt run (Text.stopsAt_of_eq_false rfl)
    | false => exact Text.takeWhile_of_stopsAt run (Text.stopsAt_nil _)
  unfold Marker.readIterator?
  simp only [front, named, if_true, List.drop_left]
  cases terminates <;> rfl

theorem ItemForm.readIterator? (form : ItemForm) :
    Marker.readIterator? (write form.lexemes) = form.iterator? := by
  cases form with
  | iterator name named terminates =>
    show Marker.readIterator? (write (bareOf _)) = _
    rw [Lexeme.write_bareOf, readIterator?_of_isName named]
    rfl
  | condition form => exact form.readIterator?

theorem mapM_eq_some_map {α β γ : Type} {make : β → Option γ} {change : α → β} {read : α → γ}
    {items : List α} (each : ∀ item ∈ items, make (change item) = some (read item)) :
    (items.map change).mapM make = some (items.map read) := by
  induction items with
  | nil => rfl
  | cons item rest ih =>
    rw [List.map_cons, List.mapM_cons, each item (.head _),
      ih fun other listed => each other (.tail _ listed)]
    rfl

/-- The iterators among items are found in order. -/
theorem iteratorsOf_items (items : List ItemForm) :
    iteratorsOf (items.map fun item => write item.lexemes) =
      items.filterMap ItemForm.iterator? := by
  unfold iteratorsOf
  rw [List.filterMap_map]
  apply List.filterMap_congr
  intro item _
  exact item.readIterator?

/-- And so are the conditions. -/
theorem conditionsOf_items (items : List ItemForm) :
    conditionsOf (items.map fun item => write item.lexemes) =
      (items.filterMap ItemForm.condition?).map fun form => write form.lexemes := by
  unfold conditionsOf
  induction items with
  | nil => rfl
  | cons item rest ih =>
    have own := item.readIterator?
    cases item with
    | iterator name named terminates =>
      rw [List.map_cons, List.filter_cons_of_neg (by simp [own, ItemForm.iterator?]), ih]
      rfl
    | condition form =>
      rw [List.map_cons, List.filter_cons_of_pos (by simp [own, ItemForm.iterator?]), ih]
      rfl

/-- Items are no brackets and no commas outside of quotes, and their quotes count. -/
theorem ItemForm.scans (form : ItemForm) {brackets : Brackets} {separator : Char} {depth : Nat}
    (counts : brackets.quotesAt depth = true) (opening : isItemPart brackets.opening = false)
    (closing : isItemPart brackets.closing = false) (unquoted : isQuote separator = false)
    (between : isItemPart separator = true → depth ≠ 0) :
    Scans brackets separator depth form.lexemes depth := by
  refine Text.scans_of_forall (fun c => isItemPart c = true) (fun c part => ⟨?_, ?_, ?_, ?_⟩)
    form.of_lexemes fun _ _ _ => ⟨counts, unquoted⟩
  · simp [isQuote_of_isItemPart part]
  · exact Text.ne_of_kind part opening
  · exact Text.ne_of_kind part closing
  · rintro rfl
    exact between part

/-- The content of a group is cut into its items. -/
theorem GroupForm.splitParts (form : GroupForm) :
    Text.splitParts .arguments ',' .start (write form.content) =
      form.items.map fun item => write item.lexemes := by
  have passes : ∀ item ∈ form.items.map fun item => write item.lexemes,
      Passes .arguments ',' .start item .start := by
    intro part listed
    rcases List.mem_map.mp listed with ⟨item, -, rfl⟩
    have scans : Scans .arguments ',' 0 item.lexemes 0 :=
      item.scans rfl rfl rfl rfl fun impossible => by cases impossible
    exact scans.passes
  unfold GroupForm.content
  rw [Lexeme.write_intercalate, List.map_map]
  rcases List.exists_cons_of_ne_nil form.nonempty with ⟨first, rest, items⟩
  rw [items] at passes ⊢
  exact Text.splitParts_intercalate rfl passes

/-- The content of a group is read as the group it stands for. -/
theorem GroupForm.readGroup? (form : GroupForm) :
    Marker.readGroup? (write form.content) = some form.group := by
  have conditions : ∀ iterator : Option String,
      (conditionsOf (form.items.map fun item => write item.lexemes)).mapM
          (Condition.read? iterator) =
        some ((form.items.filterMap ItemForm.condition?).map fun condition =>
          condition.condition iterator) := by
    intro iterator
    rw [conditionsOf_items]
    exact mapM_eq_some_map fun condition _ => condition.read? iterator
  unfold Marker.readGroup?
  simp only [form.splitParts, iteratorsOf_items]
  cases iterators : form.items.filterMap ItemForm.iterator? with
  | nil =>
    simp only [conditions, Option.map_some]
    simp [GroupForm.group, GroupForm.iterator?, iterators]
  | cons iterator more =>
    have alone : more = [] := by
      have single := form.single
      rw [iterators, List.length_cons] at single
      exact List.length_eq_zero_iff.mp (by omega)
    rcases iterator with ⟨name, terminates⟩
    subst alone
    simp only [conditions, Option.map_some]
    simp [GroupForm.group, GroupForm.iterator?, iterators]

/-! ## Brackets -/

theorem closeGroup?_inner {quote : Char} {inner rest : List Char} (closed : quote ∉ inner) :
    closeGroup? (some quote) (inner ++ quote :: rest) =
      (closeGroup? none rest).map fun parts => (inner ++ quote :: parts.1, parts.2) := by
  induction inner with
  | nil => simp [closeGroup?]
  | cons c more ih =>
    have other : c ≠ quote := fun same => closed (by rw [same]; exact .head _)
    have onward := ih fun member => closed (.tail _ member)
    simp [closeGroup?, other, onward, Function.comp_def]

/-- The bracket that closes a group is the first one outside of quotes. -/
theorem closeGroup?_write {lexemes : List Lexeme} {rest : List Char}
    (plain : ∀ lexeme ∈ lexemes, lexeme.Of fun c => isQuote c = false ∧ c ≠ ']') :
    closeGroup? none (write lexemes ++ ']' :: rest) = some (write lexemes, rest) := by
  induction lexemes with
  | nil => simp [closeGroup?]
  | cons lexeme more ih =>
    have onward := ih fun other listed => plain other (.tail _ listed)
    have own := plain lexeme (.head _)
    cases lexeme with
    | bare c => simp [closeGroup?, Lexeme.chars, own.1, own.2, onward]
    | quoted quote inner =>
      have differs : quote ≠ ']' := by
        rintro rfl
        cases own.1
      have opens : closeGroup? none (quote :: (inner ++ quote :: (write more ++ ']' :: rest))) =
          (closeGroup? (some quote) (inner ++ quote :: (write more ++ ']' :: rest))).map
            fun parts => (quote :: parts.1, parts.2) := by
        simp [closeGroup?, differs, own.1]
      have written : write (.quoted quote inner :: more) ++ ']' :: rest =
          quote :: (inner ++ quote :: (write more ++ ']' :: rest)) := by
        simp [Lexeme.chars]
      rw [written, opens, closeGroup?_inner own.2, onward]
      simp [Lexeme.chars]

theorem GroupForm.of_content (form : GroupForm) :
    ∀ lexeme ∈ form.content, lexeme.Of fun c => isItemPart c = true ∨ c = ',' := by
  intro lexeme listed
  rcases Condition.mem_intercalate listed with comma | ⟨part, item, inside⟩
  · rw [List.mem_singleton.mp comma]
    exact .inr rfl
  · rcases List.mem_map.mp item with ⟨form, -, rfl⟩
    exact (form.of_lexemes lexeme inside).imp fun _ => .inl

theorem GroupForm.write_lexemes (form : GroupForm) (rest : List Char) :
    write form.lexemes ++ rest = '[' :: (write form.content ++ ']' :: rest) := by
  simp [GroupForm.lexemes, Lexeme.chars]

theorem GroupForm.closeGroup? (form : GroupForm) (rest : List Char) :
    Marker.closeGroup? none (write form.content ++ ']' :: rest) =
      some (write form.content, rest) := by
  refine closeGroup?_write fun lexeme listed => (form.of_content lexeme listed).imp ?_
  rintro c (part | rfl)
  · exact ⟨isQuote_of_isItemPart part, Text.ne_of_kind part rfl⟩
  · exact ⟨rfl, by decide⟩

/-! ## Segments -/

/-- Groups are read one behind the other. -/
theorem readGroups_write (segment : List Char) (groups : List GroupForm) :
    ∀ fuel, (write (groups.flatMap GroupForm.lexemes)).length ≤ fuel →
      readGroups segment fuel (write (groups.flatMap GroupForm.lexemes)) =
        .ok (groups.map GroupForm.group) := by
  induction groups with
  | nil =>
    intro fuel _
    cases fuel <;> rfl
  | cons group more ih =>
    intro fuel enough
    have written : write ((group :: more).flatMap GroupForm.lexemes) =
        '[' :: (write group.content ++ ']' :: write (more.flatMap GroupForm.lexemes)) := by
      rw [List.flatMap_cons, Lexeme.write_append, group.write_lexemes]
    rw [written] at enough ⊢
    cases fuel with
    | zero => simp at enough
    | succ fuel =>
      have onward := ih fuel (by
        simp only [List.length_cons, List.length_append] at enough
        omega)
      rw [readGroups, if_pos (beq_self_eq_true '[')]
      simp only [group.closeGroup?, group.readGroup?, onward, List.map_cons]
      rfl

theorem isBracket_of_isSegmentPart {c : Char} (part : isSegmentPart c = true) :
    isBracket c = false := by
  cases bracket : isBracket c with
  | false => rfl
  | true =>
    simp only [isBracket, Bool.or_eq_true, beq_iff_eq] at bracket
    rcases bracket with rfl | rfl <;> cases part

/-- A segment is read as the one it stands for. -/
theorem SegmentForm.readSegment (form : SegmentForm) :
    Marker.readSegment (write form.lexemes) = .ok form.segment := by
  have written : write form.lexemes =
      form.name ++ write (form.groups.flatMap GroupForm.lexemes) := by
    unfold SegmentForm.lexemes
    rw [Lexeme.write_append, Lexeme.write_bareOf]
  have plain : ∀ c ∈ form.name, (!isBracket c) = true := by
    intro c member
    rw [isBracket_of_isSegmentPart (form.plain c member)]
    rfl
  have stops : Text.StopsAt (fun c => (!isBracket c) = true)
      (write (form.groups.flatMap GroupForm.lexemes)) := by
    cases form.groups with
    | nil => exact Text.stopsAt_nil _
    | cons group more =>
      rw [List.flatMap_cons, Lexeme.write_append, group.write_lexemes]
      exact Text.stopsAt_of_eq_false rfl
  have name : (write form.lexemes).takeWhile (fun c => !isBracket c) = form.name := by
    rw [written]
    exact Text.takeWhile_of_stopsAt plain stops
  have groups : (write form.lexemes).dropWhile (fun c => !isBracket c) =
      write (form.groups.flatMap GroupForm.lexemes) := by
    rw [written]
    exact Text.dropWhile_of_stopsAt plain stops
  refine readSegment_eq_ok.mpr ⟨?_, ?_, ?_⟩
  · rw [name]
    exact form.nonempty
  · rw [name]
    rfl
  · rw [groups]
    exact readGroups_write (write form.lexemes) form.groups _ (Nat.le_refl _)

end Stencil.Marker
